import FineractReports.Workflow.State

/-!
# What is persisted of a node's output

The values inside a JSON value are addressed by paths. Redaction is described by what is
found at every path: nothing below a redacted name, and otherwise the value that was there
before, with the same items and with the members that are not redacted.
-/

namespace FineractReports.Json

/-- From a value to one it holds. -/
inductive Step where
  | member (key : String)
  | item (place : ℕ)
deriving DecidableEq, Repr

def step? : Json → Step → Option Json
  | obj members, .member key => Assoc.get? members key
  | arr items, .item place => items[place]?
  | _, _ => none

def at? (value : Json) : List Step → Option Json
  | [] => some value
  | step :: path => (value.step? step).bind fun inner => inner.at? path

/-- A value without what it holds: the number of its items, the names of its members. -/
inductive Outline where
  | scalar (value : Json)
  | items (count : ℕ)
  | members (keys : List String)
deriving DecidableEq

def outline : Json → Outline
  | arr items => .items items.length
  | obj members => .members (Assoc.keys members)
  | value => .scalar value

def Outline.without (fields : List String) : Outline → Outline
  | .members keys => .members (keys.filter fun key => key ∉ fields)
  | outline => outline

section Redaction

variable (fields : List String)

@[simp] theorem redactItems_eq (items : List Json) :
    redactItems fields items = items.map (redactFields fields) := by
  induction items with
  | nil => rfl
  | cons item rest ih => rw [redactItems, ih, List.map_cons]

theorem keys_redactMembers (members : List (String × Json)) :
    Assoc.keys (redactMembers fields members) =
      (Assoc.keys members).filter fun key => key ∉ fields := by
  induction members with
  | nil => rfl
  | cons member rest ih =>
    obtain ⟨key, value⟩ := member
    rw [redactMembers]
    by_cases h : key ∈ fields
    · simpa [Assoc.keys, h] using ih
    · simpa [Assoc.keys, h] using ih

theorem get?_redactMembers (members : List (String × Json)) (key : String) :
    Assoc.get? (redactMembers fields members) key =
      if key ∈ fields then none else (Assoc.get? members key).map (redactFields fields) := by
  induction members with
  | nil => simp [redactMembers]
  | cons member rest ih =>
    obtain ⟨name, value⟩ := member
    rw [redactMembers, Assoc.get?_cons]
    by_cases hname : name ∈ fields
    · rw [if_pos hname, ih]
      by_cases hkey : name = key
      · simp [← hkey, hname]
      · simp [hkey]
    · rw [if_neg hname, Assoc.get?_cons, ih]
      by_cases hkey : name = key
      · simp [← hkey, hname]
      · simp [hkey]

theorem outline_redactFields (value : Json) :
    (redactFields fields value).outline = value.outline.without fields := by
  cases value with
  | arr items => simp [redactFields, outline, Outline.without]
  | obj members => simp [redactFields, outline, Outline.without, keys_redactMembers]
  | _ => rfl

/-- One step into the redacted value: a redacted name leads nowhere. -/
theorem step?_redactFields (value : Json) (step : Step) :
    (redactFields fields value).step? step =
      if ∃ key ∈ fields, step = .member key then none
      else (value.step? step).map (redactFields fields) := by
  cases value with
  | arr items => cases step <;> simp [redactFields, step?]
  | obj members => cases step <;> simp [redactFields, step?, get?_redactMembers]
  | _ => cases step <;> simp [redactFields, step?]

theorem at?_redactFields {path : List Step} (h : ∀ key ∈ fields, Step.member key ∉ path)
    (value : Json) :
    (redactFields fields value).at? path = (value.at? path).map (redactFields fields) := by
  induction path generalizing value with
  | nil => rfl
  | cons step path ih =>
    have hstep : ¬ ∃ key ∈ fields, step = .member key := by
      rintro ⟨key, hkey, rfl⟩
      exact h key hkey List.mem_cons_self
    have hpath : ∀ key ∈ fields, Step.member key ∉ path :=
      fun key hkey hmem => h key hkey (List.mem_cons_of_mem _ hmem)
    rw [at?, step?_redactFields, if_neg hstep, at?]
    cases value.step? step with
    | none => rfl
    | some inner => exact ih hpath inner

theorem at?_redactFields_none {path : List Step} {key : String} (hkey : key ∈ fields)
    (h : Step.member key ∈ path) (value : Json) : (redactFields fields value).at? path = none := by
  induction path generalizing value with
  | nil => cases h
  | cons step path ih =>
    rw [at?, step?_redactFields]
    split_ifs with hstep
    · rfl
    · rcases List.mem_cons.mp h with rfl | hmem
      · exact absurd ⟨key, hkey, rfl⟩ hstep
      · cases value.step? step with
        | none => rfl
        | some inner => exact ih hmem inner

mutual

theorem redactFields_redactFields :
    ∀ value, redactFields fields (redactFields fields value) = redactFields fields value
  | null | bool _ | int _ | float _ | str _ => rfl
  | arr items => by rw [redactFields, redactFields, redactItems_redactItems items]
  | obj members => by rw [redactFields, redactFields, redactMembers_redactMembers members]

theorem redactItems_redactItems :
    ∀ items, redactItems fields (redactItems fields items) = redactItems fields items
  | [] => rfl
  | item :: rest => by
    rw [redactItems, redactItems, redactFields_redactFields item, redactItems_redactItems rest]

theorem redactMembers_redactMembers :
    ∀ members, redactMembers fields (redactMembers fields members) = redactMembers fields members
  | [] => rfl
  | (key, value) :: rest => by
    rw [redactMembers]
    split_ifs with h
    · exact redactMembers_redactMembers rest
    · rw [redactMembers, if_neg h, redactFields_redactFields value,
        redactMembers_redactMembers rest]

end

end Redaction

mutual

theorem redactFields_nil : ∀ value, redactFields [] value = value
  | null | bool _ | int _ | float _ | str _ => rfl
  | arr items => by rw [redactFields, redactItems_nil items]
  | obj members => by rw [redactFields, redactMembers_nil members]

theorem redactItems_nil : ∀ items, redactItems [] items = items
  | [] => rfl
  | item :: rest => by rw [redactItems, redactFields_nil item, redactItems_nil rest]

theorem redactMembers_nil : ∀ members, redactMembers [] members = members
  | [] => rfl
  | (key, value) :: rest => by
    rw [redactMembers, if_neg List.not_mem_nil, redactFields_nil value, redactMembers_nil rest]

end

end FineractReports.Json

namespace FineractReports.Workflow

/-- The parameters that exact sensitive inputs bind. -/
def sensitiveParameters (inputs : List NodeInput) : List String :=
  (inputs.filter fun input => input.source = .exactSensitiveInput).map (·.parameter)

theorem mem_sensitiveParameters {inputs : List NodeInput} {name : String} :
    name ∈ sensitiveParameters inputs ↔
      ∃ input ∈ inputs, input.source = .exactSensitiveInput ∧ input.parameter = name := by
  simp [sensitiveParameters, and_assoc]

theorem persistedOutput_eq (inputs : List NodeInput) (output : Json) :
    persistedOutput inputs output = output.redactFields (sensitiveParameters inputs) := by
  change (if sensitiveParameters inputs = [] then output
    else output.redactFields (sensitiveParameters inputs)) = _
  split_ifs with h
  · rw [h, Json.redactFields_nil]
  · rfl

/-- The persisted output is the output without the members that exact sensitive inputs name:
no object at any depth has one, every path around them leads to the same value as before,
persisting again changes nothing, and without sensitive inputs the output is kept whole. -/
theorem persistedOutput_redacts (inputs : List NodeInput) (output : Json) :
    (∀ path members, (persistedOutput inputs output).at? path = some (.obj members) →
      ∀ input ∈ inputs, input.source = .exactSensitiveInput →
        input.parameter ∉ Assoc.keys members) ∧
    (∀ path, (∀ name ∈ sensitiveParameters inputs, Json.Step.member name ∉ path) →
      ((persistedOutput inputs output).at? path).map Json.outline =
        (output.at? path).map fun value =>
          value.outline.without (sensitiveParameters inputs)) ∧
    persistedOutput inputs (persistedOutput inputs output) = persistedOutput inputs output ∧
    ((∀ input ∈ inputs, input.source ≠ .exactSensitiveInput) →
      persistedOutput inputs output = output) := by
  simp only [persistedOutput_eq]
  have houtline : ∀ path, (∀ name ∈ sensitiveParameters inputs, Json.Step.member name ∉ path) →
      ((output.redactFields (sensitiveParameters inputs)).at? path).map Json.outline =
        (output.at? path).map fun value =>
          value.outline.without (sensitiveParameters inputs) := by
    intro path hpath
    rw [Json.at?_redactFields _ hpath, Option.map_map]
    congr 1
    funext value
    exact Json.outline_redactFields _ value
  refine ⟨?_, houtline, Json.redactFields_redactFields _ output, ?_⟩
  · intro path members hat input hinput hsource hmem
    have hname : input.parameter ∈ sensitiveParameters inputs :=
      mem_sensitiveParameters.mpr ⟨input, hinput, hsource, rfl⟩
    by_cases hpath : ∀ name ∈ sensitiveParameters inputs, Json.Step.member name ∉ path
    · have hkeys := houtline path hpath
      rw [hat] at hkeys
      cases hvalue : output.at? path with
      | none => simp [hvalue] at hkeys
      | some value =>
        cases value <;> simp [hvalue, Json.outline, Json.Outline.without] at hkeys
        rw [hkeys] at hmem
        simp [hname] at hmem
    · push Not at hpath
      obtain ⟨name, hin, hstep⟩ := hpath
      rw [Json.at?_redactFields_none _ hin hstep] at hat
      cases hat
  · intro hnone
    have hnil : sensitiveParameters inputs = [] := by
      rw [sensitiveParameters, List.filter_eq_nil_iff.mpr (by simpa using hnone), List.map_nil]
    rw [hnil, Json.redactFields_nil]

end FineractReports.Workflow
