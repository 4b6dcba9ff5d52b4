import FineractReports.Workflow.Compose

/-!
# What a composition hides

Composing drops the hidden slots of a source from the top of its output. Node runs
keep their rows one level down, where nothing is dropped.
-/

namespace FineractReports

namespace Json

mutual

/-- Some object of the value, at any depth, has the key. -/
def hasKey (name : String) : Json → Bool
  | arr items => itemsHaveKey name items
  | obj members => membersHaveKey name members
  | _ => false

def itemsHaveKey (name : String) : List Json → Bool
  | [] => false
  | item :: rest => hasKey name item || itemsHaveKey name rest

def membersHaveKey (name : String) : List (String × Json) → Bool
  | [] => false
  | (key, value) :: rest =>
    decide (key = name) || hasKey name value || membersHaveKey name rest

end

theorem hasKey_obj {name : String} {members : List (String × Json)} :
    (obj members).hasKey name = true ↔
      ∃ member ∈ members, member.1 = name ∨ member.2.hasKey name = true := by
  rw [hasKey]
  induction members with
  | nil => simp [membersHaveKey]
  | cons member rest ih =>
    obtain ⟨key, value⟩ := member
    simp [membersHaveKey, ih, or_assoc]

end Json

namespace Workflow

/-- The principal's maximum does not reach the slot. -/
def NodeOutputSlot.Hidden (maxVisible : Sensitivity) (slot : NodeOutputSlot) : Prop :=
  sensitivityRank slot.sensitivity > sensitivityRank maxVisible

instance (maxVisible : Sensitivity) (slot : NodeOutputSlot) :
    Decidable (slot.Hidden maxVisible) := inferInstanceAs (Decidable (_ > _))

namespace ComposeSource

/-- A declared slot of that name is hidden. -/
def Hides (maxVisible : Sensitivity) (source : ComposeSource) (name : String) : Prop :=
  ∃ slot ∈ source.outputSlots, slot.Hidden maxVisible ∧ slot.name = name

instance (maxVisible : Sensitivity) (source : ComposeSource) (name : String) :
    Decidable (source.Hides maxVisible name) :=
  inferInstanceAs (Decidable (∃ slot ∈ source.outputSlots, _))

/-- Nothing hidden lies below the top of the output: the values that stay, the rows
of a node run among them, have no hidden slot as a key at any depth. -/
def FlatlyHidden (maxVisible : Sensitivity) (source : ComposeSource) : Prop :=
  ∀ members, source.output = .obj members → ∀ member ∈ members,
    ¬ source.Hides maxVisible member.1 →
      ∀ name, source.Hides maxVisible name → member.2.hasKey name = false

end ComposeSource

section Filter

variable {maxVisible : Sensitivity}

theorem mem_dropHiddenSlot {state : List (String × Json) × List String} {slot : NodeOutputSlot}
    {member : String × Json} : member ∈ (dropHiddenSlot maxVisible state slot).1 ↔
      member ∈ state.1 ∧ ¬ (slot.Hidden maxVisible ∧ slot.name = member.1) := by
  unfold dropHiddenSlot
  split_ifs with h
  · have hhidden : slot.Hidden maxVisible := h.1
    simp only [Assoc.erase, List.mem_filter, decide_eq_true_eq, ne_eq]
    exact and_congr_right fun _ => not_congr ⟨fun heq => ⟨hhidden, heq.symm⟩, fun hboth =>
      hboth.2.symm⟩
  · refine (and_iff_left_of_imp fun hmem hboth => h ⟨hboth.1, ?_⟩).symm
    rw [Assoc.get?_isSome_iff, hboth.2]
    exact List.mem_map_of_mem hmem

theorem mem_keys_dropHiddenSlot {state : List (String × Json) × List String}
    {slot : NodeOutputSlot} {name : String} :
    name ∈ Assoc.keys (dropHiddenSlot maxVisible state slot).1 ↔
      name ∈ Assoc.keys state.1 ∧ ¬ (slot.Hidden maxVisible ∧ slot.name = name) := by
  simp only [Assoc.keys, List.mem_map, mem_dropHiddenSlot]
  constructor
  · rintro ⟨member, ⟨hmem, hnot⟩, rfl⟩
    exact ⟨⟨member, hmem, rfl⟩, hnot⟩
  · rintro ⟨⟨member, hmem, rfl⟩, hnot⟩
    exact ⟨member, ⟨hmem, hnot⟩, rfl⟩

theorem mem_dropped_dropHiddenSlot {state : List (String × Json) × List String}
    {slot : NodeOutputSlot} {name : String} :
    name ∈ (dropHiddenSlot maxVisible state slot).2 ↔
      name ∈ state.2 ∨ (slot.Hidden maxVisible ∧ slot.name = name) ∧ name ∈ Assoc.keys state.1 := by
  unfold dropHiddenSlot
  split_ifs with h
  · have hhidden : slot.Hidden maxVisible := h.1
    rw [List.mem_append, List.mem_singleton]
    refine or_congr_right ⟨?_, fun hboth => hboth.1.2.symm⟩
    rintro rfl
    exact ⟨⟨hhidden, rfl⟩, Assoc.get?_isSome_iff.mp h.2⟩
  · refine (or_iff_left_of_imp ?_).symm
    rintro ⟨⟨hhidden, rfl⟩, hmem⟩
    exact absurd ⟨hhidden, Assoc.get?_isSome_iff.mpr hmem⟩ h

/-- Filtering by a list of slots keeps the members that no hidden one of them names,
and reports the names it found. -/
theorem foldl_dropHiddenSlot (maxVisible : Sensitivity) (slots : List NodeOutputSlot)
    (state : List (String × Json) × List String) :
    (∀ member, member ∈ (slots.foldl (dropHiddenSlot maxVisible) state).1 ↔
      member ∈ state.1 ∧ ¬ ∃ slot ∈ slots, slot.Hidden maxVisible ∧ slot.name = member.1) ∧
    ∀ name, name ∈ (slots.foldl (dropHiddenSlot maxVisible) state).2 ↔
      name ∈ state.2 ∨ (∃ slot ∈ slots, slot.Hidden maxVisible ∧ slot.name = name) ∧
        name ∈ Assoc.keys state.1 := by
  induction slots generalizing state with
  | nil => simp
  | cons slot rest ih =>
    rw [List.foldl_cons]
    obtain ⟨hkept, hdropped⟩ := ih (dropHiddenSlot maxVisible state slot)
    constructor
    · intro member
      rw [hkept, mem_dropHiddenSlot, List.exists_mem_cons_iff, not_or, and_assoc]
    · intro name
      rw [hdropped, mem_dropped_dropHiddenSlot, mem_keys_dropHiddenSlot,
        List.exists_mem_cons_iff]
      tauto

/-- The filtered output of a source that carries an object. -/
theorem filterSensitivity_obj (maxVisible : Sensitivity) {source : ComposeSource}
    {members : List (String × Json)}
    (h : source.output = .obj members) :
    ∃ kept, (filterSensitivity maxVisible source).1 = .obj kept ∧
      (∀ member, member ∈ kept ↔ member ∈ members ∧ ¬ source.Hides maxVisible member.1) ∧
      ∀ name, name ∈ (filterSensitivity maxVisible source).2 ↔
        source.Hides maxVisible name ∧ name ∈ Assoc.keys members := by
  obtain ⟨hkept, hdropped⟩ :=
    foldl_dropHiddenSlot maxVisible source.outputSlots (members, [])
  refine ⟨_, by simp only [filterSensitivity, h], hkept, fun name => ?_⟩
  simp only [filterSensitivity, h]
  rw [hdropped]
  simp [ComposeSource.Hides]

/-- The part of a source shows no hidden slot of it, at any depth. -/
def HidesSlots (maxVisible : Sensitivity) (source : ComposeSource) (part : Json) : Prop :=
  ∀ name, source.Hides maxVisible name → part.hasKey name = false

theorem hidesSlots_iff {source : ComposeSource} {members : List (String × Json)}
    (h : source.output = .obj members) :
    HidesSlots maxVisible source (filterSensitivity maxVisible source).1 ↔
      source.FlatlyHidden maxVisible := by
  obtain ⟨kept, hfiltered, hkept, -⟩ := filterSensitivity_obj maxVisible h
  rw [HidesSlots, hfiltered]
  constructor
  · intro hhides members' hmembers member hmem hvisible name hname
    obtain rfl : members = members' := Json.obj.inj (h.symm.trans hmembers)
    by_contra hkey
    have hmention := hhides name hname
    rw [Bool.eq_false_iff] at hmention
    refine hmention (Json.hasKey_obj.mpr ⟨member, (hkept member).mpr ⟨hmem, hvisible⟩, Or.inr ?_⟩)
    simpa using hkey
  · intro hflat name hname
    rw [Bool.eq_false_iff]
    intro hmention
    obtain ⟨member, hmem, hkey | hkey⟩ := Json.hasKey_obj.mp hmention
    · exact ((hkept member).mp hmem).2 (hkey ▸ hname)
    · obtain ⟨hmember, hvisible⟩ := (hkept member).mp hmem
      simp [hflat members h member hmember hvisible name hname] at hkey

end Filter

/-- What a composed value holds of each source, in their order. -/
def composedParts (mode : Composition) (value : Json) : List Json :=
  match mode with
  | .single => [value]
  | .comparison | .grouped => ((value.get? "sources").bind Json.asArray?).getD []

variable {maxVisible : Sensitivity} {mode : Composition} {sources : List ComposeSource}
  {outcome : ComposeOutcome}

theorem compose_parts (h : compose mode sources maxVisible = .ok outcome) :
    composedParts mode outcome.value =
        sources.map (fun source => (filterSensitivity maxVisible source).1) ∧
      outcome.droppedFields =
        sources.flatMap fun source => (filterSensitivity maxVisible source).2 := by
  simp only [compose, List.map_map, List.flatMap_map] at h
  split at h
  · rename_i value hvalues
    obtain rfl := Except.ok.inj h
    exact ⟨hvalues.symm, rfl⟩
  · obtain rfl := Except.ok.inj h
    exact ⟨rfl, rfl⟩
  · obtain rfl := Except.ok.inj h
    exact ⟨rfl, rfl⟩
  · simp at h

/-- A composed outcome shows no hidden slot of a source in the part of that source,
and reports exactly the slots it removed. -/
structure RespectsSensitivity (mode : Composition) (sources : List ComposeSource)
    (maxVisible : Sensitivity) (outcome : ComposeOutcome) : Prop where
  hides : List.Forall₂ (HidesSlots maxVisible) sources (composedParts mode outcome.value)
  dropped : ∀ name, name ∈ outcome.droppedFields ↔ ∃ source ∈ sources,
    source.Hides maxVisible name ∧ (source.output.get? name).isSome = true

/-- What is no object has no member to drop. -/
theorem mem_filterSensitivity_dropped {source : ComposeSource} {name : String} :
    name ∈ (filterSensitivity maxVisible source).2 ↔
      source.Hides maxVisible name ∧ (source.output.get? name).isSome = true := by
  cases houtput : source.output with
  | obj members =>
    obtain ⟨-, -, -, hdropped⟩ := filterSensitivity_obj maxVisible houtput
    rw [hdropped, Json.get?_obj, Assoc.get?_isSome_iff]
  | _ => simp [filterSensitivity, houtput, Json.get?]

theorem compose_dropped (h : compose mode sources maxVisible = .ok outcome) (name : String) :
    name ∈ outcome.droppedFields ↔ ∃ source ∈ sources,
      source.Hides maxVisible name ∧ (source.output.get? name).isSome = true := by
  rw [(compose_parts h).2, List.mem_flatMap]
  exact exists_congr fun source => and_congr_right fun _ => mem_filterSensitivity_dropped

/-- A composition respects the sensitivities exactly when no source has a hidden slot
below the top of its output. -/
theorem compose_respects_iff {principal : PrincipalContext}
    (h : compose mode sources (maxVisibleSensitivity principal) = .ok outcome)
    (hobjects : ∀ source ∈ sources, ∃ members, source.output = .obj members) :
    RespectsSensitivity mode sources (maxVisibleSensitivity principal) outcome ↔
      ∀ source ∈ sources, source.FlatlyHidden (maxVisibleSensitivity principal) := by
  have hparts : List.Forall₂ (HidesSlots (maxVisibleSensitivity principal)) sources
        (composedParts mode outcome.value) ↔
      ∀ source ∈ sources, source.FlatlyHidden (maxVisibleSensitivity principal) := by
    rw [(compose_parts h).1, List.forall₂_map_right_iff, List.forall₂_same]
    refine forall₂_congr fun source hmem => ?_
    obtain ⟨members, hmembers⟩ := hobjects source hmem
    exact hidesSlots_iff hmembers
  constructor
  · intro hrespects
    exact hparts.mp hrespects.hides
  · intro hflat
    exact ⟨hparts.mpr hflat, compose_dropped h⟩

/-- For a guarded output this is about the rows: none of their columns is hidden. -/
theorem flatlyHidden_guarded_iff {source : ComposeSource} {payload : Json}
    (houtput : source.output = .obj [("untrusted_tool_output", payload)])
    (hvisible : ¬ source.Hides maxVisible "untrusted_tool_output") :
    source.FlatlyHidden maxVisible ↔
      ∀ name, source.Hides maxVisible name → payload.hasKey name = false := by
  constructor
  · intro hflat name hname
    exact hflat _ houtput _ List.mem_cons_self hvisible name hname
  · intro hclean members hmembers member hmem _ name hname
    obtain rfl := Json.obj.inj (houtput.symm.trans hmembers)
    obtain rfl := List.mem_singleton.mp hmem
    exact hclean name hname

namespace Phones

/-! A client list with a phone column, composed for a principal who may not see it. -/

def principal : PrincipalContext := ⟨1, "analyst", [], [1], false⟩

def slots : List NodeOutputSlot := [⟨"phone", .string, .pii, .many⟩]

def carried (rows : List Json) (top : List (String × Json)) : ComposeSource where
  output := .obj (("untrusted_tool_output", .obj [("rows", .arr rows)]) :: top)
  outputSlots := slots

/-- Only the copy at the top of the output is dropped. -/
def listed : ComposeSource :=
  carried [.obj [("client_id", .int 11), ("phone", .str "555-0101")]]
    [("phone", .str "555-0101")]

/-- The resolved phone is at the top, the rows do not have it. -/
def projected : ComposeSource :=
  carried [.obj [("client_id", .int 11)]] [("phone", .str "555-0101")]

theorem hides_iff {rows : List Json} {top : List (String × Json)} {name : String} :
    (carried rows top).Hides (maxVisibleSensitivity principal) name ↔ name = "phone" := by
  have hhidden : NodeOutputSlot.Hidden (maxVisibleSensitivity principal)
      ⟨"phone", .string, .pii, .many⟩ := by decide
  simp [ComposeSource.Hides, carried, slots, hhidden, eq_comm]

end Phones

theorem compose_respects_projected : ∃ outcome,
    compose .grouped [Phones.projected] (maxVisibleSensitivity Phones.principal) = .ok outcome ∧
      RespectsSensitivity .grouped [Phones.projected] (maxVisibleSensitivity Phones.principal)
        outcome ∧ outcome.droppedFields = ["phone"] := by
  refine ⟨_, rfl, (compose_respects_iff rfl (by simp [Phones.projected, Phones.carried])).mpr ?_,
    by decide⟩
  intro source hsource members hmembers member hmem hvisible name hname
  obtain rfl := List.mem_singleton.mp hsource
  obtain rfl := Phones.hides_iff.mp hname
  obtain rfl := Json.obj.inj hmembers
  rcases List.mem_cons.mp hmem with rfl | hmem
  · decide
  · obtain rfl := List.mem_singleton.mp hmem
    decide

/-- The rows of a guarded output keep a column the principal may not see. -/
theorem compose_shows_rows : ∃ outcome,
    compose .single [Phones.listed] (maxVisibleSensitivity Phones.principal) = .ok outcome ∧
      Phones.listed.Hides (maxVisibleSensitivity Phones.principal) "phone" ∧
      outcome.value.hasKey "phone" = true ∧
      ¬ RespectsSensitivity .single [Phones.listed] (maxVisibleSensitivity Phones.principal)
        outcome := by
  have hhides : Phones.listed.Hides (maxVisibleSensitivity Phones.principal) "phone" :=
    Phones.hides_iff.mpr rfl
  refine ⟨_, rfl, hhides, by decide, fun hrespects => ?_⟩
  have hpart := (List.forall₂_cons.mp hrespects.hides).1 "phone" hhides
  exact absurd hpart (by decide)

end Workflow

end FineractReports
