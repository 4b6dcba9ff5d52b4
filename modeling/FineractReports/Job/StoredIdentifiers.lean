import FineractReports.Assistant.HeldDigits
import FineractReports.Job.MergeableFacts
import FineractReports.Job.Service
import FineractReports.Job.StoredDocuments

/-!
# Stored identifiers

The message of a request is stored without the identifier that the intake detects, the selected
option, the answers and the selected value of a resumed workflow as they were sent. So the
digits of an identifier stay out of what is stored exactly when these hold none and the rest
does not repeat them.
-/

namespace FineractReports.Job

open IdentifierIntake Workflow

/-- One of the texts holds the digits. -/
def AnyHolds (texts : List String) (digits : List Char) : Prop :=
  ∃ text ∈ texts, Holds text.toList digits

/-- No identifier of a text that was sent stands in a text or document that is written. -/
def NeverStored (sent : List String) (documents : List Json) : Prop :=
  ∀ text ∈ sent, ∀ digits, Detects text digits →
    ∀ document ∈ documents, ¬ AnyHolds document.texts digits

/-- The texts that are stored as they were sent hold no identifier, and nothing that is kept
repeats the digits of an identifier in the others. -/
structure LeftOut (unscrubbed scrubbed kept : List String) : Prop where
  unscrubbed : ∀ text ∈ unscrubbed, identifierOf text = none
  scrubbed : ∀ text ∈ scrubbed, ∀ digits, Detects text digits → ¬ AnyHolds kept digits

/-! ### Texts -/

section Texts

variable {texts others : List String} {text : String} {digits : List Char}

@[simp] theorem anyHolds_nil : ¬ AnyHolds [] digits := by
  rintro ⟨text, htext, -⟩
  cases htext

@[simp] theorem anyHolds_cons :
    AnyHolds (text :: texts) digits ↔ Holds text.toList digits ∨ AnyHolds texts digits := by
  simp [AnyHolds]

@[simp] theorem anyHolds_append :
    AnyHolds (texts ++ others) digits ↔ AnyHolds texts digits ∨ AnyHolds others digits := by
  simp [AnyHolds, or_and_right, exists_or]

theorem anyHolds_flatMap {documents : List Json} :
    AnyHolds (documents.flatMap Json.texts) digits ↔
      ∃ document ∈ documents, AnyHolds document.texts digits := by
  induction documents with
  | nil => simp
  | cons document rest ih => simp [ih]

theorem detects_iff_of_identifierOf :
    identifierOf text = none ↔ ∀ digits, ¬ Detects text digits := by
  constructor
  · rintro hnone digits ⟨identifier, hidentifier, -⟩
    rw [hnone] at hidentifier
    cases hidentifier
  · intro h
    cases hidentifier : identifierOf text with
    | none => rfl
    | some identifier => exact absurd ⟨identifier, hidentifier, rfl⟩ (h identifier.value.toList)

/-- What is kept decides, where it holds what the documents hold. -/
theorem neverStored_iff {sent unscrubbed scrubbed kept : List String} {documents : List Json}
    (hsent : ∀ text, text ∈ sent ↔ text ∈ unscrubbed ∨ text ∈ scrubbed)
    (hstored : ∀ text ∈ unscrubbed, ∀ digits ≠ [], Holds text.toList digits →
      AnyHolds kept digits)
    (hdocuments : ∀ digits ≠ [],
      AnyHolds (documents.flatMap Json.texts) digits ↔ AnyHolds kept digits) :
    NeverStored sent documents ↔ LeftOut unscrubbed scrubbed kept := by
  have hkept : NeverStored sent documents ↔
      ∀ text ∈ sent, ∀ digits, Detects text digits → ¬ AnyHolds kept digits := by
    apply forall₂_congr
    intro text _
    apply forall₂_congr
    intro digits hdetects
    rw [← hdocuments digits hdetects.ne_nil, anyHolds_flatMap]
    simp
  rw [hkept]
  constructor
  · intro h
    constructor
    · intro text htext
      rw [detects_iff_of_identifierOf]
      intro digits hdetects
      apply h text ((hsent text).mpr (Or.inl htext)) digits hdetects
      exact hstored text htext digits hdetects.ne_nil hdetects.holds
    · intro text htext
      exact h text ((hsent text).mpr (Or.inr htext))
  · intro h text htext digits hdetects
    rcases (hsent text).mp htext with hunscrubbed | hscrubbed
    · have hnone := detects_iff_of_identifierOf.mp (h.unscrubbed text hunscrubbed)
      exact absurd hdetects (hnone digits)
    · exact h.scrubbed text hscrubbed digits hdetects

end Texts

/-! ### Documents -/

section Documents

variable {digits : List Char} {uuidText : Uuid → String}

theorem itemTexts_map_str (items : List String) : Json.itemTexts (items.map .str) = items := by
  induction items with
  | nil => rfl
  | cons item rest ih => simp [Json.itemTexts, Json.texts, ih]

theorem itemTexts_map_int (items : List ℤ) :
    Json.itemTexts (items.map .int) = items.map toString := by
  induction items with
  | nil => rfl
  | cons item rest ih => simp [Json.itemTexts, Json.texts, ih]

theorem texts_optionalText (text : Option String) :
    (JobRepository.optionalText text).texts = text.toList := by
  cases text <;> simp [JobRepository.optionalText, Json.texts]

theorem texts_optionalUuid (id : Option Uuid) :
    (optionalUuid uuidText id).texts = (id.map uuidText).toList := by
  cases id <;> simp [optionalUuid, Json.texts]

theorem texts_optionalNumber (value : Option ℕ) :
    (optionalNumber value).texts = (value.map fun value => toString (value : ℤ)).toList := by
  cases value <;> simp [optionalNumber, Json.texts]

/-- The texts of a principal. -/
def clientTexts (uuidText : Uuid → String) (client : PrincipalContext)
    (legacyApiKeyId : Option Uuid) : List String :=
  uuidText client.userId :: client.role :: client.capabilityIds ++ client.officeIds.map toString ++
    (legacyApiKeyId.map uuidText).toList

theorem createDocuments_holds (hdigits : digits ≠ []) (client : PrincipalContext)
    (legacyApiKeyId : Option Uuid) (message : String) :
    AnyHolds ((createDocuments (clientJson uuidText client legacyApiKeyId) message).flatMap
        Json.texts) digits ↔
      AnyHolds (message :: clientTexts uuidText client legacyApiKeyId) digits := by
  simp (disch := first | assumption | decide) [createDocuments, stateJson, clientJson, clientTexts,
    Json.texts, Json.memberTexts, itemTexts_map_str, itemTexts_map_int, texts_optionalUuid,
    not_holds_of_no_digit]
  tauto

/-- A member of an object holds no digits that the object does not. -/
theorem anyHolds_of_member {members : List (String × Json)} {key : String} {value : Json}
    (hmember : (key, value) ∈ members) (h : AnyHolds value.texts digits) :
    AnyHolds (Json.memberTexts members) digits := by
  induction members with
  | nil => cases hmember
  | cons member rest ih =>
    obtain ⟨first, held⟩ := member
    simp only [Json.memberTexts, anyHolds_cons, anyHolds_append]
    rcases List.mem_cons.mp hmember with hsame | hrest
    · cases hsame
      exact Or.inr (Or.inl h)
    · exact Or.inr (Or.inr (ih hrest))

/-! ### Patches -/

/-- The digits of a fact stand in the value. -/
def ReadFrom (value : Json) (fact : TypedFactValue) : Prop :=
  ∀ digits ≠ [], AnyHolds (typedFactJson fact).texts digits → AnyHolds value.texts digits

theorem readFrom_date {members : List (String × Json)} {key text : String}
    (h : Assoc.get? members key = some (.str text)) : ReadFrom (.obj members) (.date text) := by
  intro digits hdigits hholds
  apply anyHolds_of_member (Assoc.mem_of_get?_eq_some h)
  simpa (disch := first | assumption | decide) [typedFactJson, taggedJson, Json.texts,
    Json.memberTexts, not_holds_of_no_digit] using hholds

theorem readFrom_topN (value : Json) : ReadFrom value (.limitMode .topN) := by
  intro digits hdigits hholds
  simp (disch := first | assumption | decide) [typedFactJson, taggedJson, limitModeName, Json.texts,
    Json.memberTexts, not_holds_of_no_digit] at hholds

theorem readFrom_integer (value : ℤ) : ReadFrom (.int value) (.integer value) := by
  intro digits hdigits hholds
  simpa (disch := first | assumption | decide) [typedFactJson, taggedJson, Json.texts,
    Json.memberTexts, not_holds_of_no_digit] using hholds

theorem readFrom_text (field : ConstraintField) (text : String) :
    ReadFrom (.str text) (textFact field (Text.trim text)) := by
  intro digits hdigits hholds
  have htrim : Holds (Text.trim text).toList digits := by
    unfold textFact at hholds
    split at hholds <;> simpa (disch := first | assumption | decide) [typedFactJson, taggedJson,
      Json.texts, Json.memberTexts, not_holds_of_no_digit] using hholds
  simpa [Json.texts] using holds_trim_iff.mp htrim

section Patch

variable {parseDate : String → Option NaiveDate} {catalog : KnowledgeCatalog}
  {patch patched : ConstraintPatch} {value : Json}

/-- An answer adds facts whose digits stand in it. -/
theorem validateField_readFrom {field : ClarificationField} {target : Option ConstraintField}
    (h : validateField parseDate field target value patch = .ok patched) :
    ∀ entry ∈ patched, entry ∈ patch ∨ ReadFrom value entry.2 := by
  unfold validateField at h
  cases hkind : field.fieldType with
  | dateRange =>
    simp only [hkind, validateDateRange] at h
    cases value with
    | obj members =>
      simp only at h
      split_ifs at h with hlength
      split at h
      · rename_i start stop hstart hstop
        split at h
        · split_ifs at h
          obtain rfl := Except.ok.inj h
          rw [Option.bind_eq_some_iff] at hstart hstop
          obtain ⟨from', hfrom, hstart⟩ := hstart
          obtain ⟨to', hto, hstop⟩ := hstop
          rw [asStr?_eq_some] at hstart hstop
          subst hstart hstop
          intro entry hentry
          rcases Assoc.mem_insert hentry with rfl | hentry
          · exact Or.inr (readFrom_date hto)
          · rcases Assoc.mem_insert hentry with rfl | hentry
            · exact Or.inr (readFrom_date hfrom)
            · exact Or.inl hentry
        · cases h
      · cases h
    | _ => cases h
  | integer =>
    simp only [hkind, validateInteger] at h
    cases value with
    | int number =>
      split at h
      · rename_i integer hinteger
        have hsame : number = integer := by
          simp only [Json.asI64?] at hinteger
          split_ifs at hinteger
          exact Option.some.inj hinteger
        subst hsame
        split_ifs at h with hbounds hlimit
        · obtain rfl := Except.ok.inj h
          intro entry hentry
          rcases Assoc.mem_insert hentry with rfl | hentry
          · exact Or.inr (readFrom_integer number)
          · rcases Assoc.mem_insert hentry with rfl | hentry
            · exact Or.inr (readFrom_topN _)
            · exact Or.inl hentry
        · obtain rfl := Except.ok.inj h
          exact fun entry hentry => Or.inl hentry
      · cases h
    | _ => simp [Json.asI64?] at h
  | text =>
    simp only [hkind, validateText] at h
    split at h
    · rename_i text htext
      rw [Option.filter_eq_some_iff, Option.map_eq_some_iff] at htext
      obtain ⟨⟨source, hsource, rfl⟩, -⟩ := htext
      rw [asStr?_eq_some] at hsource
      subst hsource
      split_ifs at h
      cases target with
      | some fieldPath =>
        obtain rfl := Except.ok.inj h
        intro entry hentry
        rcases Assoc.mem_insert hentry with rfl | hentry
        · exact Or.inr (readFrom_text fieldPath source)
        · exact Or.inl hentry
      | none =>
        obtain rfl := Except.ok.inj h
        exact fun entry hentry => Or.inl hentry
    · cases h

/-- The facts of a patch are read from the answers. -/
theorem validateFields_readFrom {answers : List (String × Json)} {fields : List ClarificationField}
    (h : validateFields parseDate catalog answers patch fields = .ok patched) :
    ∀ entry ∈ patched, entry ∈ patch ∨ ReadFrom (.obj answers) entry.2 := by
  induction fields generalizing patch with
  | nil =>
    obtain rfl := Except.ok.inj h
    exact fun entry hentry => Or.inl hentry
  | cons field rest ih =>
    unfold validateFields at h
    cases hanswer : Assoc.get? answers field.key with
    | some value =>
      simp only [hanswer, bind_eq_ok_iff] at h
      obtain ⟨next, hnext, hrest⟩ := h
      intro entry hentry
      rcases ih hrest entry hentry with hold | hread
      · rcases validateField_readFrom hnext entry hold with hpatch | hvalue
        · exact Or.inl hpatch
        · right
          intro digits hdigits hholds
          exact anyHolds_of_member (Assoc.mem_of_get?_eq_some hanswer)
            (hvalue digits hdigits hholds)
      · exact Or.inr hread
    | none =>
      simp only [hanswer] at h
      split_ifs at h
      exact ih h

theorem fieldName_no_digit (field : ConstraintField) :
    (constraintFieldName field).toList.all (fun c => !c.isDigit) = true := by
  cases field <;> decide

/-- A patch holds no digits that the answers do not. -/
theorem patch_holds {answers : List (String × Json)} (hdigits : digits ≠ [])
    (hread : ∀ entry ∈ patch, ReadFrom (.obj answers) entry.2)
    (h : AnyHolds (constraintPatchJson patch).texts digits) :
    AnyHolds (Json.memberTexts answers) digits := by
  have hentries : ∀ entries : List (ConstraintField × TypedFactValue),
      (∀ entry ∈ entries, ReadFrom (.obj answers) entry.2) →
      AnyHolds (Json.memberTexts (entries.map fun entry =>
        (constraintFieldName entry.1, typedFactJson entry.2))) digits →
      AnyHolds (Json.memberTexts answers) digits := by
    intro entries hall hholds
    induction entries with
    | nil => exact absurd hholds anyHolds_nil
    | cons entry rest ih =>
      obtain ⟨hentry, hrest⟩ := List.forall_mem_cons.mp hall
      simp only [List.map_cons, Json.memberTexts, anyHolds_cons, anyHolds_append] at hholds
      rcases hholds with hname | hvalue | hlater
      · exact absurd hname (not_holds_of_no_digit hdigits (fieldName_no_digit entry.1))
      · exact hentry digits hdigits hvalue
      · exact ih hrest hlater
  apply hentries patch.entries _ h
  intro entry hentry
  obtain ⟨field, -, hfield⟩ := List.mem_filterMap.mp hentry
  obtain ⟨value, hvalue, rfl⟩ := Option.map_eq_some_iff.mp hfield
  exact hread _ (Assoc.mem_of_get?_eq_some hvalue)

end Patch

/-- What a response keeps, beside the message: the option, the answers and the ids. -/
def responseTexts (uuidText : Uuid → String) (currentStep : String)
    (submission : ValidatedClarificationSubmission) (messageId : Uuid) : List String :=
  submission.selectedOptionId.toList ++ Json.memberTexts submission.answers ++
    (submission.clarificationId.map uuidText).toList ++
    (submission.clarificationRevision.map fun revision => toString (revision : ℤ)).toList ++
    [uuidText messageId, currentStep]

theorem respondDocuments_holds {submission : ValidatedClarificationSubmission}
    (hdigits : digits ≠ [])
    (hread : ∀ entry ∈ submission.constraintPatch, ReadFrom (.obj submission.answers) entry.2)
    (currentStep : String) (messageId : Uuid) :
    AnyHolds ((respondDocuments uuidText currentStep submission messageId).flatMap Json.texts)
        digits ↔
      AnyHolds (submission.displayMessage :: submission.sourceMessage ::
        responseTexts uuidText currentStep submission messageId) digits := by
  have hpatch := patch_holds hdigits hread
  simp (disch := first | assumption | decide) [respondDocuments, responseMetadata, responseTexts,
    Json.texts, Json.memberTexts, texts_optionalText, texts_optionalUuid, texts_optionalNumber,
    not_holds_of_no_digit]
  tauto

/-- What a resume keeps. -/
def resumeTexts (uuidText : Uuid → String) (request : WorkflowResumeRequest) : List String :=
  request.selectedValue.texts ++ [request.nodeId.value, uuidText request.workflowId]

theorem resumeDocuments_holds (hdigits : digits ≠ []) (request : WorkflowResumeRequest) :
    AnyHolds ((resumeDocuments uuidText request).flatMap Json.texts) digits ↔
      AnyHolds (resumeTexts uuidText request) digits := by
  simp (disch := first | assumption | decide) [resumeDocuments, resumedRuntime, resumeTexts,
    Json.texts, Json.memberTexts, not_holds_of_no_digit]
  tauto

end Documents

/-! ### Requests -/

namespace JobService

/-- What a call of `create` writes; a call that fails writes nothing. -/
def createWrites (uuidText : Uuid → String) (call : CreateCall) : List Json :=
  match create uuidText call with
  | .ok documents => documents
  | .error _ => []

/-- What a call of `respond` writes. -/
def respondWrites (uuidText : Uuid → String) (parseDate : String → Option NaiveDate)
    (catalog : KnowledgeCatalog) (tables : JobTables) (call : RespondCall) : List Json :=
  match respond uuidText parseDate catalog tables call with
  | .ok (_, documents) => documents
  | .error _ => []

end JobService

/-- The session can be used, and a detected identifier is within the limit. -/
def CreateCall.Creates (call : CreateCall) : Prop :=
  call.sessionFound = true ∧ (identifierOf call.message ≠ none → call.lookupAllowed = true)

namespace RespondCall

/-- The texts a response sends. -/
def sent (call : RespondCall) : List String :=
  call.request.optionId.toList ++ Json.memberTexts call.request.answers ++
    call.request.message.toList

/-- The response continues the paused workflow of the job. -/
structure Resumes (tables : JobTables) (call : RespondCall) (request : WorkflowResumeRequest) :
    Prop where
  named : JobService.missingIdentity call.request = none
  workflow : call.workflowFieldsPresent = true
  requested : call.workflowRequest = .ok request
  owned : tables.jobId = request.jobId ∧ tables.userId = request.userId
  waiting : tables.status = .waitingForUserInput
  paused : tables.namesPausedNode request

/-- The response is a message of the waiting job. -/
structure Inserts (parseDate : String → Option NaiveDate) (catalog : KnowledgeCatalog)
    (tables : JobTables) (call : RespondCall) (payload : ClarificationPayload)
    (submission : ValidatedClarificationSubmission) : Prop where
  named : JobService.missingIdentity call.request = none
  plain : call.workflowFieldsPresent = false
  owned : tables.jobId = call.jobId ∧ tables.userId = call.client.userId ∧
    tables.sessionArchived = false
  reads : call.payload = some payload
  valid : validateSubmission parseDate catalog payload call.client call.request = .ok submission
  allowed : identifierOf call.request.sourceMessage ≠ none → call.lookupAllowed = true
  waiting : tables.status = .waitingForUserInput
  names : JobRepository.namesPending tables submission

/-- The label shown for the chosen option, when the response has no message. -/
def shownLabel (call : RespondCall) (payload : ClarificationPayload) : List String :=
  if call.request.structured = true ∧ call.request.sourceMessage = "" then
    ((chosenOption payload call.request).map fun option => semanticText option.label).toList
  else []

/-- What an inserted response keeps. -/
def keptTexts (uuidText : Uuid → String) (currentStep : String) (call : RespondCall)
    (payload : ClarificationPayload) : List String :=
  semanticText call.request.sourceMessage :: call.shownLabel payload ++
    call.request.selectedOptionId.toList ++ Json.memberTexts call.request.answers ++
    (call.request.clarificationId.map uuidText).toList ++
    (call.request.clarificationRevision.map fun revision => toString (revision : ℤ)).toList ++
    [uuidText call.messageId, currentStep]

end RespondCall

section Create

variable {uuidText : Uuid → String} {call : CreateCall}

theorem createWrites_of_creates (h : call.Creates) :
    JobService.createWrites uuidText call =
      createDocuments (clientJson uuidText call.client call.legacyApiKeyId)
        (semanticText call.message) := by
  have hlimit : ¬ (identifierOf call.message ≠ none ∧ call.lookupAllowed = false) := by
    rintro ⟨hidentifier, hrefused⟩
    rw [h.2 hidentifier] at hrefused
    cases hrefused
  have hcreate : JobService.create uuidText call =
      .ok (createDocuments (clientJson uuidText call.client call.legacyApiKeyId)
        (semanticText call.message)) := by
    simp only [JobService.create, identifierIntake_eq, bind_eq_ok_iff, exists_unit_iff,
      failIf_eq_ok, Except.ok.injEq, exists_eq_left']
    refine ⟨hlimit, ?_⟩
    rw [if_neg (by rw [h.1]; decide)]
    rfl
  rw [JobService.createWrites, hcreate]

theorem createWrites_of_not_creates (h : ¬ call.Creates) :
    JobService.createWrites uuidText call = [] := by
  unfold JobService.createWrites
  cases hcreate : JobService.create uuidText call with
  | error reason => rfl
  | ok documents =>
    simp only [JobService.create, identifierIntake_eq, bind_eq_ok_iff, exists_unit_iff,
      failIf_eq_ok, Except.ok.injEq, exists_eq_left'] at hcreate
    obtain ⟨hlimit, hdocuments⟩ := hcreate
    split_ifs at hdocuments with hsession
    · exact (pure_eq_ok.mp hdocuments).symm
    · exfalso
      apply h
      refine ⟨by simpa using hsession, fun hidentifier => ?_⟩
      by_contra hrefused
      exact hlimit ⟨hidentifier, by simpa using hrefused⟩

theorem neverStored_nil (sent : List String) : NeverStored sent [] := by
  intro text _ digits _ document hdocument
  cases hdocument

theorem create_neverStored_iff :
    NeverStored [call.message] (JobService.createWrites uuidText call) ↔
      (call.Creates → LeftOut [] [call.message] (semanticText call.message ::
        clientTexts uuidText call.client call.legacyApiKeyId)) := by
  by_cases hcreates : call.Creates
  · rw [createWrites_of_creates hcreates, imp_iff_right hcreates]
    apply neverStored_iff
    · simp
    · simp
    · intro digits hdigits
      exact createDocuments_holds hdigits call.client call.legacyApiKeyId _
  · rw [createWrites_of_not_creates hcreates]
    simp [hcreates, neverStored_nil]

end Create

section Resume

variable {uuidText : Uuid → String} {parseDate : String → Option NaiveDate}
  {catalog : KnowledgeCatalog} {tables : JobTables} {call : RespondCall}
  {request : WorkflowResumeRequest}

theorem resume_resumed_iff : (tables.resume request).1 = .resumed ↔
    (tables.jobId = request.jobId ∧ tables.userId = request.userId) ∧
      tables.status = .waitingForUserInput ∧ tables.namesPausedNode request := by
  unfold JobTables.resume
  split_ifs with howned hwaiting hnamed
  · exact ⟨nofun, fun h => absurd h.2.1 hwaiting⟩
  · exact ⟨fun _ => ⟨howned, not_not.mp hwaiting, hnamed⟩, fun _ => rfl⟩
  · exact ⟨nofun, fun h => absurd h.2.2 hnamed⟩
  · exact ⟨nofun, fun h => absurd h.1 howned⟩

theorem respondWrites_of_resumes (h : call.Resumes tables request) :
    JobService.respondWrites uuidText parseDate catalog tables call =
      resumeDocuments uuidText request := by
  have hresume := resume_resumed_iff.mpr ⟨h.owned, h.waiting, h.paused⟩
  simp [JobService.respondWrites, JobService.respond, h.named, h.workflow, JobService.resume,
    h.requested, hresume]

/-- The selected value is sent. -/
theorem selectedValue_sent (call : RespondCall) :
    ∀ text ∈ call.selectedValue.texts, text ∈ call.sent := by
  intro text htext
  unfold RespondCall.selectedValue at htext
  unfold RespondCall.sent
  cases hoption : call.request.optionId with
  | some optionId =>
    rw [hoption] at htext
    simp [Json.texts] at htext
    simp [htext]
  | none =>
    simp only [hoption] at htext
    split_ifs at htext with hanswers
    · simp only [Json.texts] at htext
      simp [htext]
    · cases hmessage : call.request.message with
      | some message =>
        simp [hmessage, Json.texts] at htext
        simp [htext]
      | none => simp [hmessage, Json.texts] at htext

theorem workflowRequest_selectedValue (h : call.workflowRequest = .ok request) :
    request.selectedValue = call.selectedValue := by
  unfold RespondCall.workflowRequest at h
  split at h
  · simp only [bind_eq_ok_iff, okOr_eq_ok, pure_eq_ok] at h
    obtain ⟨nodeId, -, rfl⟩ := h
    rfl
  · cases h

theorem resume_neverStored_iff (h : call.Resumes tables request) :
    NeverStored call.sent (JobService.respondWrites uuidText parseDate catalog tables call) ↔
      LeftOut request.selectedValue.texts call.sent (resumeTexts uuidText request) := by
  rw [respondWrites_of_resumes h]
  apply neverStored_iff
  · intro text
    rw [workflowRequest_selectedValue h.requested]
    constructor
    · exact Or.inr
    · rintro (hselected | hsent)
      · exact selectedValue_sent call text hselected
      · exact hsent
  · intro text htext digits _ hholds
    exact ⟨text, List.mem_append_left _ htext, hholds⟩
  · intro digits hdigits
    exact resumeDocuments_holds hdigits request

end Resume

section Insert

variable {uuidText : Uuid → String} {parseDate : String → Option NaiveDate}
  {catalog : KnowledgeCatalog} {tables : JobTables} {call : RespondCall}
  {payload : ClarificationPayload} {request : ResponseRequest} {principal : PrincipalContext}
  {submission : ValidatedClarificationSubmission} {digits : List Char}

/-- An accepted response is submitted as it was sent, the message and the option trimmed. -/
structure SubmittedAs (request : ResponseRequest) (submission : ValidatedClarificationSubmission) :
    Prop where
  clarificationId : submission.clarificationId = request.clarificationId
  clarificationRevision : submission.clarificationRevision = request.clarificationRevision
  selectedOptionId : submission.selectedOptionId = request.selectedOptionId
  sourceMessage : submission.sourceMessage = request.sourceMessage
  answers : submission.answers = request.answers

theorem submittedAs
    (h : validateSubmission parseDate catalog payload principal request = .ok submission) :
    SubmittedAs request submission := by
  unfold validateSubmission at h
  split_ifs at h with hplain hempty
  · obtain rfl := Except.ok.inj h
    simp only [ResponseRequest.structured, Bool.or_eq_false_iff, Option.isSome_eq_false_iff,
      Option.isNone_iff_eq_none] at hplain
    exact ⟨hplain.1.1.symm, hplain.1.2.symm, rfl, rfl, rfl⟩
  · simp only [bind_eq_ok_iff, exists_unit_iff, failIf_eq_ok, okOr_eq_ok, pure_eq_ok] at h
    obtain ⟨id, hid, revision, hrevision, selected, -, -, -, patch, -, rfl⟩ := h
    exact ⟨hid.symm, hrevision.symm, rfl, rfl, rfl⟩

theorem displayMessage_eq
    (h : validateSubmission parseDate catalog payload principal request = .ok submission) :
    submission.displayMessage =
      if request.structured = true then displayMessage request (chosenOption payload request)
      else request.selectedOptionId.getD request.sourceMessage := by
  unfold validateSubmission at h
  split_ifs at h with hplain hempty
  · obtain rfl := Except.ok.inj h
    rw [if_neg (by rw [hplain]; decide)]
    rfl
  · simp only [bind_eq_ok_iff, exists_unit_iff, failIf_eq_ok, okOr_eq_ok, pure_eq_ok] at h
    obtain ⟨id, -, revision, -, selected, hselected, -, -, patch, -, rfl⟩ := h
    rw [if_pos (by simpa using hplain), ← selectedOption_eq hselected]

/-- The facts of an accepted response are read from its answers. -/
theorem submission_readFrom
    (h : validateSubmission parseDate catalog payload principal request = .ok submission) :
    ∀ entry ∈ submission.constraintPatch, ReadFrom (.obj submission.answers) entry.2 := by
  rw [(submittedAs h).answers]
  intro entry hentry
  rcases validateSubmission_patch h with ⟨-, hempty⟩ | ⟨-, hfields⟩
  · rw [hempty] at hentry
    cases hentry
  · rcases validateFields_readFrom hfields entry hentry with hnone | hread
    · cases hnone
    · exact hread

theorem respond_inserted_iff {jobId userId messageId : Uuid} :
    (JobRepository.respond tables jobId userId submission messageId).1 = .inserted ↔
      (tables.jobId = jobId ∧ tables.userId = userId ∧ tables.sessionArchived = false) ∧
        tables.status = .waitingForUserInput ∧ JobRepository.namesPending tables submission := by
  unfold JobRepository.respond
  split_ifs with howned hwaiting hnames
  · exact ⟨nofun, fun h => absurd h.2.1 hwaiting⟩
  · exact ⟨fun _ => ⟨howned, not_not.mp hwaiting, hnames⟩, fun _ => rfl⟩
  · exact ⟨nofun, fun h => absurd h.2.2 hnames⟩
  · exact ⟨nofun, fun h => absurd h.1 howned⟩

/-- What is stored of a submission. -/
def stored (submission : ValidatedClarificationSubmission) : ValidatedClarificationSubmission :=
  { submission with
    sourceMessage := semanticText submission.sourceMessage
    displayMessage := semanticText submission.displayMessage }

theorem respondWrites_of_inserts (h : call.Inserts parseDate catalog tables payload submission) :
    JobService.respondWrites uuidText parseDate catalog tables call =
      respondDocuments uuidText tables.currentStep (stored submission) call.messageId := by
  have hlimit : ¬ (identifierOf submission.sourceMessage ≠ none ∧ call.lookupAllowed = false) := by
    rintro ⟨hidentifier, hrefused⟩
    rw [(submittedAs h.valid).sourceMessage] at hidentifier
    rw [h.allowed hidentifier] at hrefused
    cases hrefused
  have hnames : JobRepository.namesPending tables (stored submission) := h.names
  have hinserted : (JobRepository.respond tables call.jobId call.client.userId (stored submission)
      call.messageId).1 = .inserted :=
    respond_inserted_iff.mpr ⟨h.owned, h.waiting, hnames⟩
  have hinsert : JobService.insertResponse uuidText tables call submission =
      .ok (.inserted, respondDocuments uuidText tables.currentStep (stored submission)
        call.messageId) := by
    simp only [JobService.insertResponse, identifierIntake_eq, bind_eq_ok_iff, exists_unit_iff,
      failIf_eq_ok, Except.ok.injEq, exists_eq_left']
    refine ⟨hlimit, ?_⟩
    rw [show scrubbed submission ⟨semanticText submission.sourceMessage,
        identifierOf submission.sourceMessage⟩ ⟨semanticText submission.displayMessage,
          identifierOf submission.displayMessage⟩ = stored submission from rfl, hinserted]
    rfl
  simp [JobService.respondWrites, JobService.respond, h.named, h.plain, h.owned, h.reads, h.valid,
    hinsert]

/-- A call that neither resumes nor inserts writes nothing. -/
theorem respondWrites_eq_nil (hresumes : ∀ request, ¬ call.Resumes tables request)
    (hinserts : ∀ payload submission,
      ¬ call.Inserts parseDate catalog tables payload submission) :
    JobService.respondWrites uuidText parseDate catalog tables call = [] := by
  unfold JobService.respondWrites JobService.respond
  cases hnamed : JobService.missingIdentity call.request with
  | some field => rfl
  | none =>
    simp only
    split_ifs with hworkflow howned
    · -- the resume is refused
      simp only [JobService.resume]
      cases hrequest : call.workflowRequest with
      | error field => rfl
      | ok request =>
        simp only
        cases houtcome : (tables.resume request).1 with
        | resumed =>
          obtain ⟨hjob, hwaiting, hpaused⟩ := resume_resumed_iff.mp houtcome
          exact absurd ⟨hnamed, hworkflow, hrequest, hjob, hwaiting, hpaused⟩ (hresumes request)
        | notFound => rfl
        | notWaiting => rfl
        | stale => rfl
    · cases hpayload : call.payload with
      | none => rfl
      | some payload =>
        simp only
        cases hvalid : validateSubmission parseDate catalog payload call.client call.request with
        | error error => rfl
        | ok submission =>
          simp only
          have hsource := (submittedAs hvalid).sourceMessage
          cases hinsert : JobService.insertResponse uuidText tables call submission with
          | error reason => rfl
          | ok written =>
            simp only [JobService.insertResponse, identifierIntake_eq, bind_eq_ok_iff,
              exists_unit_iff, failIf_eq_ok, Except.ok.injEq, exists_eq_left'] at hinsert
            obtain ⟨hlimit, hinsert⟩ := hinsert
            split at hinsert
            · rename_i hinserted
              obtain ⟨-, hwaiting, hnames⟩ := respond_inserted_iff.mp hinserted
              refine absurd ⟨hnamed, by simpa using hworkflow, howned, hpayload, hvalid,
                fun hidentifier => ?_, hwaiting, hnames⟩ (hinserts payload submission)
              by_contra hrefused
              rw [← hsource] at hidentifier
              exact hlimit ⟨hidentifier, by simpa using hrefused⟩
            all_goals
              obtain rfl := pure_eq_ok.mp hinsert
              rfl
    · rfl

/-- The shown message holds the digits of the message, of the option or of the label. -/
theorem shown_holds (hdigits : digits ≠ [])
    (h : validateSubmission parseDate catalog payload call.client call.request = .ok submission)
    (hholds : Holds (semanticText submission.displayMessage).toList digits) :
    Holds (semanticText call.request.sourceMessage).toList digits ∨
      AnyHolds (call.shownLabel payload) digits ∨
      AnyHolds call.request.selectedOptionId.toList digits := by
  rw [displayMessage_eq h] at hholds
  unfold RespondCall.shownLabel
  by_cases hstructured : call.request.structured = true
  · rw [if_pos hstructured] at hholds
    unfold displayMessage at hholds
    by_cases hsource : call.request.sourceMessage = ""
    · rw [if_neg (by simpa using hsource)] at hholds
      rw [if_pos ⟨hstructured, hsource⟩]
      cases hoption : chosenOption payload call.request with
      | some option =>
        rw [hoption] at hholds
        exact Or.inr (Or.inl ⟨semanticText option.label, by simp, hholds⟩)
      | none =>
        rw [hoption] at hholds
        exact absurd (holds_of_semanticText hdigits hholds)
          (not_holds_of_no_digit hdigits (by decide))
    · rw [if_pos hsource] at hholds
      exact Or.inl hholds
  · rw [if_neg hstructured] at hholds
    cases hoption : call.request.selectedOptionId with
    | some optionId =>
      rw [hoption] at hholds
      exact Or.inr (Or.inr ⟨optionId, by simp, holds_of_semanticText hdigits hholds⟩)
    | none =>
      rw [hoption] at hholds
      exact Or.inl hholds

/-- The label stands in the shown message. -/
theorem label_holds
    (h : validateSubmission parseDate catalog payload call.client call.request = .ok submission)
    (hholds : AnyHolds (call.shownLabel payload) digits) :
    Holds (semanticText submission.displayMessage).toList digits := by
  unfold RespondCall.shownLabel at hholds
  split_ifs at hholds with hshows
  · obtain ⟨text, htext, hheld⟩ := hholds
    obtain ⟨option, hoption, rfl⟩ := Option.map_eq_some_iff.mp (Option.mem_toList.mp htext)
    rw [displayMessage_eq h, if_pos hshows.1, hoption]
    unfold displayMessage
    rw [if_neg (by simpa using hshows.2)]
    exact hheld
  · exact absurd hholds anyHolds_nil

/-- What is written of a response is what it keeps. -/
theorem stored_holds (h : call.Inserts parseDate catalog tables payload submission)
    (hdigits : digits ≠ []) :
    AnyHolds ((respondDocuments uuidText tables.currentStep (stored submission)
        call.messageId).flatMap Json.texts) digits ↔
      AnyHolds (call.keptTexts uuidText tables.currentStep payload) digits := by
  have hsame := submittedAs h.valid
  have hread := submission_readFrom h.valid
  have hstored : ∀ entry ∈ (stored submission).constraintPatch,
      ReadFrom (.obj (stored submission).answers) entry.2 := hread
  have hshown := @shown_holds _ _ _ _ _ _ hdigits h.valid
  have hlabel := @label_holds _ _ _ _ _ digits h.valid
  rw [respondDocuments_holds hdigits hstored]
  simp only [responseTexts, RespondCall.keptTexts, stored, hsame.selectedOptionId, hsame.answers,
    hsame.clarificationId, hsame.clarificationRevision, hsame.sourceMessage, anyHolds_cons,
    anyHolds_append, List.cons_append, List.append_assoc]
  constructor
  · rintro (hmessage | hsource | hrest)
    · rcases hshown hmessage with hsource | hlabel | hoption
      · exact Or.inl hsource
      · exact Or.inr (Or.inl hlabel)
      · exact Or.inr (Or.inr (Or.inl hoption))
    · exact Or.inl hsource
    · exact Or.inr (Or.inr hrest)
  · rintro (hsource | hlabels | hrest)
    · exact Or.inr (Or.inl hsource)
    · exact Or.inl (hlabel hlabels)
    · exact Or.inr (Or.inr hrest)

theorem insert_neverStored_iff (h : call.Inserts parseDate catalog tables payload submission) :
    NeverStored call.sent (JobService.respondWrites uuidText parseDate catalog tables call) ↔
      LeftOut (call.request.optionId.toList ++ Json.memberTexts call.request.answers)
        call.request.message.toList (call.keptTexts uuidText tables.currentStep payload) := by
  rw [respondWrites_of_inserts h]
  apply neverStored_iff
  · intro text
    rw [RespondCall.sent, List.mem_append]
  · intro text htext digits hdigits hholds
    rcases List.mem_append.mp htext with hoption | hanswer
    · -- the option is trimmed, and dropped when it is blank
      have htrim := holds_trim_iff.mpr hholds
      have hne : Text.trim text ≠ "" := by
        intro hempty
        rw [hempty] at htrim
        exact not_holds_of_no_digit hdigits rfl htrim
      have hselected : call.request.selectedOptionId = some (Text.trim text) := by
        rw [ResponseRequest.selectedOptionId, Option.mem_toList.mp hoption]
        simp [hne]
      refine ⟨Text.trim text, ?_, htrim⟩
      simp [RespondCall.keptTexts, hselected]
    · refine ⟨text, ?_, hholds⟩
      simp [RespondCall.keptTexts, hanswer]
  · intro digits hdigits
    exact stored_holds h hdigits

end Insert

namespace AccountAnswer

/-- The form asks for a name, and an account number is typed. -/
def request : ResponseRequest :=
  { NameLookup.request with answers := [("search", .str "account number 12345678")] }

def waiting : JobTables :=
  { JobRepository.create 1 2 (.obj []) with
    status := .waitingForUserInput
    currentStep := "waiting_for_user_input"
    pendingClarification := some NameLookup.question }

def call : RespondCall where
  jobId := 1
  client := NameLookup.principal
  request := request
  workflowId := none
  nodeId := none
  workflowRevision := none
  pending := some NameLookup.question
  lookupAllowed := true
  messageId := 9

def submission : ValidatedClarificationSubmission :=
  { NameLookup.submission with
    answers := [("search", .str "account number 12345678")]
    constraintPatch := [(.personName, .personName "account number 12345678")] }

theorem inserts : call.Inserts (fun _ => none) FineractReports.NameLookup.catalog waiting
    NameLookup.question submission where
  named := by decide
  plain := by decide
  owned := by decide
  reads := by decide
  valid := by decide
  allowed := by decide
  waiting := by decide
  names := by decide

/-- The same answer continues a paused workflow. -/
def paused : JobTables :=
  { waiting with
    workflowId := some 7
    workflowRevision := 2
    currentNodeId := some PausedJob.nodeId
    pendingClarification := some PausedJob.question }

def resumeCall : RespondCall :=
  { call with
    request := { request with optionId := none }
    workflowId := some 7
    nodeId := some "clarify_from_date"
    workflowRevision := some 2 }

def resumeRequest : WorkflowResumeRequest where
  jobId := 1
  userId := 2
  workflowId := 7
  nodeId := PausedJob.nodeId
  clarificationId := 5
  workflowRevision := 2
  selectedValue := .obj [("search", .str "account number 12345678")]

theorem resumes : resumeCall.Resumes paused resumeRequest where
  named := by decide
  workflow := by decide
  requested := by decide
  owned := by decide
  waiting := by decide
  paused := by decide

end AccountAnswer

end FineractReports.Job
