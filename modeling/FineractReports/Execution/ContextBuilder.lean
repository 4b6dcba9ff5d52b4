import FineractReports.Execution.PendingClarification
import FineractReports.Library.Budget
import FineractReports.Library.KeyedLists

/-!
# The context of a session

What the runtime reads of a session: its last messages, its relevant jobs and what its memory
holds, within the limits of a policy. The relevant jobs come from two lists, the one in the
session memory and the jobs found in the database. Both hold the jobs that were completed last,
and nothing compares them, so a job on both lists is returned twice.
-/

namespace FineractReports.Context

/-! ### Stored data -/

structure ContextWindowPolicy where
  softTokenLimit : ℕ
  hardTokenLimit : ℕ
  maxRecentMessages : ℕ
  maxRelevantJobs : ℕ
  maxRelevantJobs_usize : maxRelevantJobs < 2 ^ 64

inductive ContextWarning where
  | nearLimit
  | exceeded
deriving DecidableEq

def ContextWarning.code : ContextWarning → ContextWarningCode
  | nearLimit => .sessionContextNearLimit
  | exceeded => .sessionContextExceeded

def ContextWarning.message : ContextWarning → String
  | nearLimit => "Session context is near the routing limit."
  | exceeded => "Session context exceeds the hard routing limit."

/-- A message with the time it was written, as text. -/
structure DatedMessage extends ContextMessage where
  createdAt : Option String
deriving DecidableEq

structure RelevantJobSummary where
  jobId : String
  sessionId : Option String
  domain : Option String
  intent : Option String
  createdAt : Option String
  summary : String
  retrievalPlan : Json
  evidenceDecision : Json
  evidenceRefs : List String
deriving DecidableEq

structure ChatSession where
  id : Uuid
  userId : Option Uuid
  archived : Bool

structure ChatMessage where
  sessionId : Uuid
  role : String
  content : String
  createdAt : ℕ

/-- The memory of a job, with the columns of the job it is joined with. -/
structure CompletedJobMemoryRow where
  jobId : String
  sessionId : Uuid
  userId : Uuid
  terminalState : Option String
  intentJson : Option Json
  retrievalPlanJson : Json
  evidenceDecisionJson : Json
  selectedCapability : Option String
  executionSummaryJson : Json
  createdAt : ℕ

/-- The rows of `assistant_job_memory`, one for each job. -/
structure JobMemoryTable where
  rows : List CompletedJobMemoryRow
  distinct : (rows.map CompletedJobMemoryRow.jobId).Nodup

/-- The session memory as it is read back from its row. -/
structure SessionMemory where
  summary : Option String
  activeDomain : Option String
  pendingClarification : Option ClarificationPayload
  pendingClarificationSourceIntent : Option Json
  entities : Json
  relevantJobs : Json

structure ContextStore where
  sessions : List ChatSession
  messages : List ChatMessage
  jobs : JobMemoryTable
  memory : SessionMemory

structure ContextRequest where
  sessionId : Uuid
  client : PrincipalContext
  pendingClarification : Option ClarificationPayload
  allowLegacySessionPending : Bool

/-- The window with all that the builder returns. -/
structure SessionContext where
  summary : Option String
  activeDomain : Option String
  selectedEntities : Json
  recentMessages : List DatedMessage
  relevantJobs : List RelevantJobSummary
  pendingClarification : Option ClarificationPayload
  sourceIntent : Option Json
  clientScope : Json
  warnings : List ContextWarning

/-- What the runtime reads of it. -/
def SessionContext.window (context : SessionContext) : ContextWindow where
  activeDomain := context.activeDomain
  recentMessages := context.recentMessages.map DatedMessage.toContextMessage
  pendingClarification := context.pendingClarification
  clientScope := context.clientScope
  warnings := context.warnings.map ContextWarning.code

/-! ### Reading the store -/

/-- How the values are written as text and read from it: the JSON of a value, of a pending
clarification and of its source intent, a time, and the job list of a session memory. -/
structure ContextCodec where
  jsonText : Json → String
  payloadText : ClarificationPayload → String
  sourceIntentJson : SourceIntentSnapshot → Json
  rfc3339 : ℕ → String
  readJobs : Json → Option (List RelevantJobSummary)

section Builder

variable (codec : ContextCodec)

/-- The messages of a session that its user may see, in the order they were written. -/
def listForUser (store : ContextStore) (sessionId userId : Uuid) (includeLegacy : Bool) :
    Option (List ChatMessage) :=
  if store.sessions.any fun session => session.id = sessionId ∧
      (session.userId = some userId ∨ (includeLegacy = true ∧ session.userId = none)) ∧
      session.archived = false then
    some (sortByKey ChatMessage.createdAt
      (store.messages.filter fun message => message.sessionId = sessionId))
  else none

def contextMessage (message : ChatMessage) : DatedMessage where
  role := message.role
  content := message.content
  createdAt := some (codec.rfc3339 message.createdAt)

/-- The messages of the session, as the window has them. -/
def sessionMessages (store : ContextStore) (request : ContextRequest) : List DatedMessage :=
  ((listForUser store request.sessionId request.client.userId false).getD []).map
    (contextMessage codec)

def memberText (value : Json) (member : String) : Option String :=
  (value.get? member).bind Json.asStr?

def jobSummary (row : CompletedJobMemoryRow) : RelevantJobSummary where
  jobId := row.jobId
  sessionId := none
  domain := row.intentJson.bind fun intent => memberText intent "domain"
  intent := row.intentJson.bind fun intent => memberText intent "intent"
  createdAt := some (codec.rfc3339 row.createdAt)
  summary := row.selectedCapability.getD
    ((memberText row.executionSummaryJson "reason").getD "completed assistant job")
  retrievalPlan := row.retrievalPlanJson
  evidenceDecision := row.evidenceDecisionJson
  evidenceRefs := []

/-- The completed jobs of a session, the newest first. -/
def completedRows (jobs : JobMemoryTable) (sessionId userId : Uuid) :
    List CompletedJobMemoryRow :=
  sortByKey (fun row => OrderDual.toDual row.createdAt) (jobs.rows.filter fun row =>
    row.sessionId = sessionId ∧ row.userId = userId ∧ row.terminalState = some "completed")

/-- A limit below zero is an error of the database. -/
def recentCompletedJobSummaries (jobs : JobMemoryTable) (sessionId userId : Uuid) (limit : ℤ) :
    Except String (List RelevantJobSummary) :=
  if limit < 0 then .error "LIMIT must not be negative"
  else .ok (((completedRows jobs sessionId userId).take limit.toNat).map (jobSummary codec))

/-- The cast of a `usize` to `i64`. -/
def asI64 (value : ℕ) : ℤ := (value : ℤ).bmod (2 ^ 64)

/-- The jobs in the session memory. -/
def rememberedJobs (memory : SessionMemory) : List RelevantJobSummary :=
  (codec.readJobs memory.relevantJobs).getD []

/-! ### Building the window -/

/-- The context before it is cut to the token limits. -/
structure Gathered where
  memory : SessionMemory
  messages : List DatedMessage
  relevantJobs : List RelevantJobSummary
  pendingClarification : Option ClarificationPayload
  sourceIntent : Option Json
  clientScope : Json

variable (policy : ContextWindowPolicy) (store : ContextStore) (request : ContextRequest)

def gather : Except String Gathered := do
  let messages := sessionMessages codec store request
  let completed ← recentCompletedJobSummaries codec store.jobs request.sessionId
    request.client.userId (asI64 policy.maxRelevantJobs)
  let pending := request.pendingClarification.or
    (if request.allowLegacySessionPending then store.memory.pendingClarification else none)
  let sourceIntent := ((pending.bind (·.sourceIntent)).map codec.sourceIntentJson).or
    (if request.allowLegacySessionPending then store.memory.pendingClarificationSourceIntent
      else none)
  pure
    { memory := store.memory
      messages := messages.drop (messages.length - policy.maxRecentMessages)
      relevantJobs := (rememberedJobs codec store.memory ++ completed).take
        policy.maxRelevantJobs
      pendingClarification := pending
      sourceIntent := sourceIntent
      clientScope := Execution.clientScope request.client store.memory.activeDomain
        store.memory.entities }

def estimateTokens (text : String) : ℕ := (Text.tokens Text.isWhitespace text).length

def messageTokens (message : DatedMessage) : ℕ :=
  estimateTokens message.role + estimateTokens message.content +
    (message.createdAt.map estimateTokens).getD 0

def jobTokens (job : RelevantJobSummary) : ℕ :=
  estimateTokens job.jobId + estimateTokens (job.domain.getD "") +
    estimateTokens (job.intent.getD "") + estimateTokens job.summary +
    estimateTokens (codec.jsonText job.retrievalPlan) +
    estimateTokens (codec.jsonText job.evidenceDecision)

/-- The tokens of everything but the messages. -/
def fixedTokens (gathered : Gathered) : ℕ :=
  estimateTokens (gathered.memory.summary.getD "") +
    estimateTokens (codec.jsonText gathered.memory.entities) +
    estimateTokens (codec.jsonText gathered.memory.relevantJobs) +
    estimateTokens ((gathered.pendingClarification.map codec.payloadText).getD "") +
    estimateTokens ((gathered.sourceIntent.map codec.jsonText).getD "") +
    estimateTokens (codec.jsonText gathered.clientScope) +
    (gathered.memory.activeDomain.map estimateTokens).getD 0 +
    (gathered.relevantJobs.map (jobTokens codec)).sum

def estimatedTokens (gathered : Gathered) : ℕ :=
  fixedTokens codec gathered + (gathered.messages.map messageTokens).sum

def tokenWarnings (estimated : ℕ) : List ContextWarning :=
  if policy.hardTokenLimit < estimated then [.exceeded]
  else if policy.softTokenLimit < estimated then [.nearLimit] else []

/-- Only a context over the hard limit is cut, and then to the soft one. -/
def keptMessages (estimated : ℕ) (messages : List DatedMessage) : List DatedMessage :=
  if policy.hardTokenLimit < estimated then
    Budget.dropOldest messageTokens policy.softTokenLimit estimated messages
  else messages

def buildWithPending : Except String SessionContext := do
  let gathered ← gather codec policy store request
  let estimated := estimatedTokens codec gathered
  pure
    { summary := gathered.memory.summary
      activeDomain := gathered.memory.activeDomain
      selectedEntities := gathered.memory.entities
      recentMessages := keptMessages policy estimated gathered.messages
      relevantJobs := gathered.relevantJobs
      pendingClarification := gathered.pendingClarification
      sourceIntent := gathered.sourceIntent
      clientScope := gathered.clientScope
      warnings := tokenWarnings policy estimated }

/-! ### Limits -/

/-- The window keeps to the limits of its policy; `gathered` is the context it was cut from. -/
structure RespectsLimits (gathered : Gathered) (context : SessionContext) : Prop where
  messages_le : context.recentMessages.length ≤ policy.maxRecentMessages
  messages_suffix : context.recentMessages <:+ sessionMessages codec store request
  jobs_le : context.relevantJobs.length ≤ policy.maxRelevantJobs
  jobs_distinct : (context.relevantJobs.map RelevantJobSummary.jobId).Nodup
  exceeded_iff : ContextWarning.exceeded ∈ context.warnings ↔
    policy.hardTokenLimit < estimatedTokens codec gathered
  oldestDropped : ContextWarning.exceeded ∈ context.warnings → ∃ dropped,
    Budget.OldestDropped messageTokens policy.softTokenLimit (fixedTokens codec gathered)
      gathered.messages context.recentMessages dropped

/-- The jobs of the memory that fit are different ones, and none of them is among the newest
completed jobs that fit behind them. -/
structure NoJobTwice : Prop where
  remembered : (((rememberedJobs codec store.memory).take policy.maxRelevantJobs).map
    RelevantJobSummary.jobId).Nodup
  completed : ∀ row ∈ (completedRows store.jobs request.sessionId request.client.userId).take
      (policy.maxRelevantJobs - (rememberedJobs codec store.memory).length),
    row.jobId ∉ (rememberedJobs codec store.memory).map RelevantJobSummary.jobId

end Builder

section Lemmas

variable {codec : ContextCodec} {policy : ContextWindowPolicy} {store : ContextStore}
  {request : ContextRequest} {gathered : Gathered} {context : SessionContext}

theorem asI64_of_lt {value : ℕ} (h : value < 2 ^ 63) : asI64 value = value := by
  unfold asI64
  rw [Int.bmod_eq_of_le] <;> omega

theorem asI64_neg {value : ℕ} (hmany : 2 ^ 63 ≤ value) (h : value < 2 ^ 64) :
    asI64 value < 0 := by
  unfold asI64
  rw [Int.bmod_def, Int.emod_eq_of_lt (by omega) (by omega), if_neg (by omega)]
  omega

theorem completedRows_nodup (jobs : JobMemoryTable) (sessionId userId : Uuid) :
    ((completedRows jobs sessionId userId).map CompletedJobMemoryRow.jobId).Nodup := by
  have hrows := jobs.distinct.sublist ((List.filter_sublist (p := fun row =>
    row.sessionId = sessionId ∧ row.userId = userId ∧
      row.terminalState = some "completed")).map CompletedJobMemoryRow.jobId)
  exact (sortByKey_perm.map _).nodup_iff.mpr hrows

theorem gather_of_lt (h : policy.maxRelevantJobs < 2 ^ 63) :
    ∃ gathered, gather codec policy store request = .ok gathered := by
  unfold gather recentCompletedJobSummaries
  rw [asI64_of_lt h, if_neg (by omega)]
  exact ⟨_, rfl⟩

/-- What was gathered: the last messages, and the jobs of both lists up to the limit. -/
theorem gather_ok (h : gather codec policy store request = .ok gathered) :
    policy.maxRelevantJobs < 2 ^ 63 ∧
      gathered.messages = (sessionMessages codec store request).drop
        ((sessionMessages codec store request).length - policy.maxRecentMessages) ∧
      gathered.relevantJobs = (rememberedJobs codec store.memory ++
        ((completedRows store.jobs request.sessionId request.client.userId).take
          policy.maxRelevantJobs).map (jobSummary codec)).take policy.maxRelevantJobs := by
  unfold gather recentCompletedJobSummaries at h
  by_cases hlt : policy.maxRelevantJobs < 2 ^ 63
  · rw [asI64_of_lt hlt, if_neg (by omega)] at h
    obtain rfl := Except.ok.inj h
    exact ⟨hlt, rfl, rfl⟩
  · rw [if_pos (asI64_neg (Nat.not_lt.mp hlt) policy.maxRelevantJobs_usize)] at h
    cases h

/-- The ids of the relevant jobs: those of the memory, then the completed jobs that fit. -/
theorem relevantJobs_ids (h : gather codec policy store request = .ok gathered) :
    gathered.relevantJobs.map RelevantJobSummary.jobId =
      ((rememberedJobs codec store.memory).take policy.maxRelevantJobs).map
        RelevantJobSummary.jobId ++
      ((completedRows store.jobs request.sessionId request.client.userId).take
        (policy.maxRelevantJobs - (rememberedJobs codec store.memory).length)).map
          CompletedJobMemoryRow.jobId := by
  obtain ⟨-, -, hjobs⟩ := gather_ok h
  rw [hjobs, List.take_append, List.map_append, ← List.map_take, List.take_take, List.map_map,
    Nat.min_eq_left (Nat.sub_le _ _)]
  rfl

/-- No id stands twice among the relevant jobs exactly where none is on both lists. -/
theorem relevantJobs_nodup_iff (h : gather codec policy store request = .ok gathered) :
    (gathered.relevantJobs.map RelevantJobSummary.jobId).Nodup ↔
      NoJobTwice codec policy store request := by
  have hcompleted : (((completedRows store.jobs request.sessionId request.client.userId).take
      (policy.maxRelevantJobs - (rememberedJobs codec store.memory).length)).map
        CompletedJobMemoryRow.jobId).Nodup :=
    (completedRows_nodup _ _ _).sublist ((List.take_sublist _ _).map _)
  rw [relevantJobs_ids h, List.nodup_append]
  constructor
  · rintro ⟨hremembered, -, hapart⟩
    refine ⟨hremembered, fun row hrow hmem => ?_⟩
    -- Where a completed job fits, the whole list of the memory did.
    have hfits : (rememberedJobs codec store.memory).length ≤ policy.maxRelevantJobs := by
      by_contra hmany
      rw [Nat.sub_eq_zero_of_le (Nat.le_of_not_le hmany), List.take_zero] at hrow
      exact List.not_mem_nil hrow
    rw [List.take_of_length_le hfits] at hapart
    exact hapart _ hmem _ (List.mem_map_of_mem hrow) rfl
  · intro hdistinct
    refine ⟨hdistinct.remembered, hcompleted, ?_⟩
    intro id hid other hother heq
    obtain ⟨row, hrow, rfl⟩ := List.mem_map.mp hother
    refine hdistinct.completed row hrow (heq ▸ ?_)
    exact ((List.take_sublist _ _).map _).subset hid

theorem exceeded_mem_tokenWarnings {estimated : ℕ} :
    ContextWarning.exceeded ∈ tokenWarnings policy estimated ↔
      policy.hardTokenLimit < estimated := by
  unfold tokenWarnings
  split_ifs with hhard hsoft
  · exact iff_of_true (List.mem_singleton_self _) hhard
  · exact iff_of_false (by decide) hhard
  · exact iff_of_false List.not_mem_nil hhard

theorem keptMessages_suffix (estimated : ℕ) (messages : List DatedMessage) :
    keptMessages policy estimated messages <:+ messages := by
  unfold keptMessages
  split_ifs
  · exact Budget.dropOldest_suffix _ _ _ _
  · exact List.suffix_refl _

theorem buildWithPending_ok (h : gather codec policy store request = .ok gathered) :
    ∃ context, buildWithPending codec policy store request = .ok context ∧
      context.relevantJobs = gathered.relevantJobs ∧
      context.recentMessages =
        keptMessages policy (estimatedTokens codec gathered) gathered.messages ∧
      context.warnings = tokenWarnings policy (estimatedTokens codec gathered) := by
  unfold buildWithPending
  rw [h]
  exact ⟨_, rfl, rfl, rfl, rfl⟩

/-- All limits but one hold of every window. -/
theorem respectsLimits_iff (h : gather codec policy store request = .ok gathered)
    (hbuild : buildWithPending codec policy store request = .ok context) :
    RespectsLimits codec policy store request gathered context ↔
      NoJobTwice codec policy store request := by
  obtain ⟨built, hbuilt, hjobs, hmessages, hwarnings⟩ := buildWithPending_ok h
  obtain rfl := Except.ok.inj (hbuilt.symm.trans hbuild)
  obtain ⟨-, hgathered, hrelevant⟩ := gather_ok h
  have hsuffix : keptMessages policy (estimatedTokens codec gathered) gathered.messages <:+
      gathered.messages := keptMessages_suffix _ _
  constructor
  · intro hrespects
    have hdistinct := hrespects.jobs_distinct
    rw [hjobs] at hdistinct
    exact (relevantJobs_nodup_iff h).mp hdistinct
  · intro hdistinct
    constructor
    · rw [hmessages]
      refine hsuffix.length_le.trans ?_
      rw [hgathered, List.length_drop]
      omega
    · rw [hmessages]
      refine hsuffix.trans ?_
      rw [hgathered]
      exact List.drop_suffix _ _
    · rw [hjobs, hrelevant]
      exact List.length_take_le _ _
    · rw [hjobs]
      exact (relevantJobs_nodup_iff h).mpr hdistinct
    · rw [hwarnings]
      exact exceeded_mem_tokenWarnings
    · intro hexceeded
      rw [hwarnings] at hexceeded
      rw [hmessages, keptMessages, if_pos (exceeded_mem_tokenWarnings.mp hexceeded)]
      exact Budget.dropOldest_oldestDropped _ _ _ _

theorem exceeded_mem_window : .sessionContextExceeded ∈ context.window.warnings ↔
    ContextWarning.exceeded ∈ context.warnings := by
  constructor
  · intro h
    obtain ⟨warning, hwarning, hcode⟩ := List.mem_map.mp h
    cases warning with
    | nearLimit => cases hcode
    | exceeded => exact hwarning
  · intro h
    exact List.mem_map.mpr ⟨.exceeded, h, rfl⟩

/-- A turn in a context over the hard limit ends before anything is routed. -/
theorem runWithRouter_of_exceeded (h : gather codec policy store request = .ok gathered)
    (hbuild : buildWithPending codec policy store request = .ok context)
    (hexceeded : policy.hardTokenLimit < estimatedTokens codec gathered) (reader : MessageReader)
    (input : RuntimeUserInput) (route : Execution.TurnOutcome) :
    Execution.runWithRouter reader context.window input route =
      .ended .contextWindowExceeded "context_window_exceeded" := by
  obtain ⟨built, hbuilt, -, -, hwarnings⟩ := buildWithPending_ok h
  obtain rfl := Except.ok.inj (hbuilt.symm.trans hbuild)
  have hwarned : ContextWarning.exceeded ∈ built.warnings := by
    rw [hwarnings]
    exact exceeded_mem_tokenWarnings.mpr hexceeded
  rw [Execution.runWithRouter, if_pos (exceeded_mem_window.mpr hwarned)]

end Lemmas

/-- Every window keeps to its limits exactly where no job is on both lists. A limit that is
no 64-bit integer gives no window. -/
theorem buildWithPending_respectsLimits_iff (codec : ContextCodec) (policy : ContextWindowPolicy)
    (store : ContextStore) (request : ContextRequest) :
    (∀ context, buildWithPending codec policy store request = .ok context →
      ∃ gathered, gather codec policy store request = .ok gathered ∧
        RespectsLimits codec policy store request gathered context) ↔
      (policy.maxRelevantJobs < 2 ^ 63 → NoJobTwice codec policy store request) := by
  constructor
  · intro h hlt
    obtain ⟨gathered, hgather⟩ := gather_of_lt hlt
    obtain ⟨context, hbuild, -⟩ := buildWithPending_ok hgather
    obtain ⟨found, hfound, hrespects⟩ := h context hbuild
    exact (respectsLimits_iff hfound hbuild).mp hrespects
  · intro h context hbuild
    cases hgather : gather codec policy store request with
    | error message =>
      unfold buildWithPending at hbuild
      rw [hgather] at hbuild
      cases hbuild
    | ok gathered =>
      exact ⟨gathered, rfl, (respectsLimits_iff hgather hbuild).mpr (h (gather_ok hgather).1)⟩

/-! ### A session with one completed job -/

namespace OneJob

def readSummary (value : Json) : Option RelevantJobSummary := do
  let jobId ← memberText value "job_id"
  let summary ← memberText value "summary"
  pure
    { jobId := jobId
      sessionId := memberText value "session_id"
      domain := memberText value "domain"
      intent := memberText value "intent"
      createdAt := memberText value "created_at"
      summary := summary
      retrievalPlan := (value.get? "retrieval_plan").getD .null
      evidenceDecision := (value.get? "evidence_decision").getD .null
      evidenceRefs := (((value.get? "evidence_refs").bind Json.asArray?).getD []).filterMap
        Json.asStr? }

/-- A list of objects is read as it is; every text is one word. -/
def codec : ContextCodec where
  jsonText _ := "null"
  payloadText _ := "null"
  sourceIntentJson _ := .null
  rfc3339 _ := "2026-08-01T00:00:00+00:00"
  readJobs value := value.asArray?.bind fun items => items.mapM readSummary

def jobId : String := "7b0d5c5e-1f43-4f0c-9a54-2f2b8f6a0c11"

/-- The memory of the session after its only job was completed. -/
def memory : SessionMemory where
  summary := none
  activeDomain := some "savings"
  pendingClarification := none
  pendingClarificationSourceIntent := none
  entities := .arr []
  relevantJobs := .arr [.obj [("job_id", .str jobId), ("summary", .str "savings.balance")]]

def jobRow : CompletedJobMemoryRow where
  jobId := jobId
  sessionId := 1
  userId := 7
  terminalState := some "completed"
  intentJson := none
  retrievalPlanJson := .obj []
  evidenceDecisionJson := .obj []
  selectedCapability := some "savings.balance"
  executionSummaryJson := .obj []
  createdAt := 0

theorem jobRow_distinct : ([jobRow].map CompletedJobMemoryRow.jobId).Nodup :=
  List.nodup_singleton _

def store : ContextStore where
  sessions := [⟨1, some 7, false⟩]
  messages := []
  jobs := ⟨[jobRow], jobRow_distinct⟩
  memory := memory

def request : ContextRequest where
  sessionId := 1
  client := ⟨7, "admin", [], [], true⟩
  pendingClarification := none
  allowLegacySessionPending := false

theorem defaultLimit_usize : 3 < 2 ^ 64 := by decide

/-- The limits that are configured by default. -/
def policy : ContextWindowPolicy where
  softTokenLimit := 6000
  hardTokenLimit := 8000
  maxRecentMessages := 12
  maxRelevantJobs := 3
  maxRelevantJobs_usize := defaultLimit_usize

/-- The job is returned twice, from the memory and from the database. -/
theorem job_returned_twice : ∃ context,
    buildWithPending codec policy store request = .ok context ∧
      context.relevantJobs.map RelevantJobSummary.jobId = [jobId, jobId] ∧
      ∀ gathered, ¬ RespectsLimits codec policy store request gathered context := by
  have hlimit : policy.maxRelevantJobs < 2 ^ 63 := by decide
  obtain ⟨gathered, hgather⟩ :=
    @gather_of_lt codec policy store request hlimit
  obtain ⟨context, hbuild, hjobs, -⟩ := buildWithPending_ok hgather
  have hids : context.relevantJobs.map RelevantJobSummary.jobId = [jobId, jobId] := by
    rw [hjobs, relevantJobs_ids hgather]
    decide
  refine ⟨context, hbuild, hids, fun other hrespects => ?_⟩
  have hdistinct := hrespects.jobs_distinct
  rw [hids] at hdistinct
  exact absurd hdistinct (by decide)

end OneJob

end FineractReports.Context
