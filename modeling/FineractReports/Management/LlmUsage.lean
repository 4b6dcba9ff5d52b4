import FineractReports.Audit.LlmTraces
import FineractReports.Library.GroupedSums
import Mathlib.Data.String.Basic

/-!
# Usage of the language model

The usage page groups the traces of a range of time by day, model, purpose or status; the
dashboard folds the groups by status into one set of totals. Whatever the page groups by, its
groups come to the totals of the dashboard.
-/

namespace FineractReports.Management

open Llm

inductive LlmGroupBy where
  | day | model | purpose | status
deriving DecidableEq

inductive WarningCode where
  | usageMissing
  | costEstimateUnavailable
  | priceVersionMismatch
  | telemetryDropped
  | unusualUsageDetected
deriving DecidableEq

structure LlmUsageQuery where
  since : ℤ
  upTo : ℤ
  groupBy : LlmGroupBy
deriving DecidableEq

structure UsageRow where
  groupKey : String
  calls : ℕ
  inputTokens : Option ℤ
  outputTokens : Option ℤ
  totalTokens : Option ℤ
  unknownUsage : ℕ
  errors : ℕ
  p95LatencyMs : Option ℤ
  costAmount : Option ℚ
  costCurrency : Option String
  priceVersion : Option String
  priceVersions : ℕ
deriving DecidableEq

structure UsageCost where
  amount : ℚ
  currency : String
  priceVersion : String
deriving DecidableEq

structure UsageGroup where
  key : String
  calls : ℕ
  inputTokens : Option ℤ
  outputTokens : Option ℤ
  totalTokens : Option ℤ
  unknownUsageCalls : ℕ
  errors : ℕ
  p95LatencyMs : Option ℤ
  estimatedCost : Option UsageCost
deriving DecidableEq

structure LlmUsageResponse where
  since : ℤ
  upTo : ℤ
  groups : List UsageGroup
  warnings : List WarningCode
deriving DecidableEq

def UsageGroup.ofRow (row : UsageRow) : UsageGroup where
  key := row.groupKey
  calls := row.calls
  inputTokens := row.inputTokens
  outputTokens := row.outputTokens
  totalTokens := row.totalTokens
  unknownUsageCalls := row.unknownUsage
  errors := row.errors
  p95LatencyMs := row.p95LatencyMs
  estimatedCost :=
    if row.priceVersions ≤ 1 then do
      let amount ← row.costAmount
      let currency ← row.costCurrency
      let priceVersion ← row.priceVersion
      pure ⟨amount, currency, priceVersion⟩
    else none

/-! ### The page -/

section Page

variable (dayText : ℤ → String) (p95 : List ℤ → ℤ)

/-- The text that a trace is grouped by; `dayText` writes the start of a day. -/
def groupKey (dayText : ℤ → String) : LlmGroupBy → LlmTraceRecord → String
  | .day, trace => dayText trace.createdAt
  | .model, trace => trace.model
  | .purpose, trace => trace.purpose
  | .status, trace => trace.status

def tracesWithin (traces : List LlmTraceRecord) (since upTo : ℤ) : List LlmTraceRecord :=
  traces.filter fun trace => decide (since ≤ trace.createdAt ∧ trace.createdAt < upTo)

/-- The aggregates of one group; `p95` is the percentile of its latencies. -/
def usageRow (p95 : List ℤ → ℤ) (key : String) (traces : List LlmTraceRecord) : UsageRow where
  groupKey := key
  calls := traces.length
  inputTokens := sumPresent (traces.map fun trace => trace.inputTokens.map Int32.toInt)
  outputTokens := sumPresent (traces.map fun trace => trace.outputTokens.map Int32.toInt)
  totalTokens := sumPresent (traces.map fun trace => trace.totalTokens.map Int32.toInt)
  unknownUsage := traces.countP fun trace => trace.usageStatus = "unavailable"
  errors := traces.countP fun trace => trace.status ≠ "ok"
  p95LatencyMs :=
    if traces = [] then none else some (p95 (traces.map fun trace => trace.latencyMs.toInt))
  costAmount := sumPresent (traces.map LlmTraceRecord.costUsd)
  costCurrency := (traces.filterMap LlmTraceRecord.costCurrency).min?
  priceVersion := (traces.filterMap LlmTraceRecord.priceVersion).min?
  priceVersions := ((traces.filter fun trace => trace.costUsd.isSome).map fun trace =>
    (trace.costCurrency, trace.priceVersion)).dedup.length

def usageRows (traces : List LlmTraceRecord) (query : LlmUsageQuery) : List UsageRow :=
  let within := tracesWithin traces query.since query.upTo
  let key := groupKey dayText query.groupBy
  (groupKeys key within).map fun k => usageRow p95 k (group key within k)

def aggregate (traces : List LlmTraceRecord) (query : LlmUsageQuery) : LlmUsageResponse :=
  let rows := usageRows dayText p95 traces query
  let usageMissing := rows.any fun row => 0 < row.unknownUsage
  let priceMismatch := rows.any fun row => 1 < row.priceVersions
  { since := query.since
    upTo := query.upTo
    groups := rows.map UsageGroup.ofRow
    warnings := [if usageMissing then some .usageMissing else none,
      if priceMismatch then some .priceVersionMismatch else none].filterMap id }

end Page

/-! ### The totals of the dashboard -/

structure DashboardLlmUsage where
  calls : ℕ
  inputTokens : Option ℤ
  outputTokens : Option ℤ
  totalTokens : Option ℤ
  unknownUsageCalls : ℕ
  errors : ℕ
  p95LatencyMs : Option ℤ
  estimatedCost : Option UsageCost
  warnings : List WarningCode
deriving DecidableEq

section Totals

variable (dayText : ℤ → String) (p95 : List ℤ → ℤ)

def addTokens (tokens : Option ℤ) : Option ℤ → Option ℤ
  | some value => some (tokens.getD 0 + value)
  | none => tokens

/-- One turn of the loop over the groups; the latency so far is kept apart from the totals. -/
def addGroup (state : DashboardLlmUsage × Option ℤ) (group : UsageGroup) :
    DashboardLlmUsage × Option ℤ :=
  let (totals, latencyMax) := state
  ({ totals with
      calls := totals.calls + group.calls
      unknownUsageCalls := totals.unknownUsageCalls + group.unknownUsageCalls
      errors := totals.errors + group.errors
      inputTokens := addTokens totals.inputTokens group.inputTokens
      outputTokens := addTokens totals.outputTokens group.outputTokens
      totalTokens := addTokens totals.totalTokens group.totalTokens },
    match group.p95LatencyMs with
    | some value => some ((latencyMax.map fun previous => max previous value).getD value)
    | none => latencyMax)

def llmUsageTotals (traces : List LlmTraceRecord) (since upTo : ℤ) : DashboardLlmUsage :=
  let usage := aggregate dayText p95 traces ⟨since, upTo, .status⟩
  let (totals, latencyMax) := usage.groups.foldl addGroup
    ({ calls := 0
       inputTokens := none
       outputTokens := none
       totalTokens := none
       unknownUsageCalls := 0
       errors := 0
       p95LatencyMs := none
       estimatedCost := none
       warnings := usage.warnings }, none)
  let anyInput := usage.groups.any fun group => group.inputTokens.isSome
  let anyOutput := usage.groups.any fun group => group.outputTokens.isSome
  let anyTotal := usage.groups.any fun group => group.totalTokens.isSome
  { totals with
    inputTokens := if anyInput then totals.inputTokens else none
    outputTokens := if anyOutput then totals.outputTokens else none
    totalTokens := if anyTotal then totals.totalTokens else none
    p95LatencyMs := latencyMax
    warnings :=
      if 0 < totals.unknownUsageCalls ∧ WarningCode.usageMissing ∉ totals.warnings then
        totals.warnings ++ [.usageMissing]
      else totals.warnings }

end Totals

/-! ### What the groups come to -/

section Groups

variable {dayText : ℤ → String} {p95 : List ℤ → ℤ} {traces : List LlmTraceRecord}
  {since upTo : ℤ} {groupBy : LlmGroupBy}

@[simp] theorem addTokens_eq_merge (tokens value : Option ℤ) :
    addTokens tokens value = Option.merge (· + ·) tokens value := by
  cases tokens <;> cases value <;> simp [addTokens]

/-- The loop adds up what the groups have. -/
theorem foldl_addGroup (groups : List UsageGroup) (state : DashboardLlmUsage × Option ℤ) :
    groups.foldl addGroup state =
      ({ state.1 with
          calls := state.1.calls + total (· + ·) 0 UsageGroup.calls groups
          unknownUsageCalls :=
            state.1.unknownUsageCalls + total (· + ·) 0 UsageGroup.unknownUsageCalls groups
          errors := state.1.errors + total (· + ·) 0 UsageGroup.errors groups
          inputTokens := Option.merge (· + ·) state.1.inputTokens
            (total (Option.merge (· + ·)) none UsageGroup.inputTokens groups)
          outputTokens := Option.merge (· + ·) state.1.outputTokens
            (total (Option.merge (· + ·)) none UsageGroup.outputTokens groups)
          totalTokens := Option.merge (· + ·) state.1.totalTokens
            (total (Option.merge (· + ·)) none UsageGroup.totalTokens groups) },
        Option.merge max state.2
          (total (Option.merge max) none UsageGroup.p95LatencyMs groups)) := by
  induction groups generalizing state with
  | nil => simp
  | cons group groups ih =>
    have hlatency : ∀ latency value : Option ℤ, (match value with
        | some value => some ((latency.map fun previous => max previous value).getD value)
        | none => latency) = Option.merge max latency value := by
      intro latency value
      cases latency <;> cases value <;> simp
    have hassoc : ∀ a b c : Option ℤ, Option.merge (· + ·) (Option.merge (· + ·) a b) c =
        Option.merge (· + ·) a (Option.merge (· + ·) b c) := Std.Associative.assoc
    have hmax : ∀ a b c : Option ℤ, Option.merge max (Option.merge max a b) c =
        Option.merge max a (Option.merge max b c) := Std.Associative.assoc
    rw [List.foldl_cons, ih]
    simp [addGroup, hlatency, hassoc, hmax, Nat.add_assoc, -Option.merge_max]

/-- What a set of totals says of the groups of a page. -/
structure DashboardLlmUsage.SumsUp (totals : DashboardLlmUsage) (groups : List UsageGroup) :
    Prop where
  calls : totals.calls = (groups.map UsageGroup.calls).sum
  unknownUsageCalls :
    totals.unknownUsageCalls = (groups.map UsageGroup.unknownUsageCalls).sum
  errors : totals.errors = (groups.map UsageGroup.errors).sum
  inputTokens : totals.inputTokens = sumPresent (groups.map UsageGroup.inputTokens)
  outputTokens : totals.outputTokens = sumPresent (groups.map UsageGroup.outputTokens)
  totalTokens : totals.totalTokens = sumPresent (groups.map UsageGroup.totalTokens)

/-- A sum that is dropped when no value was there is the sum. -/
theorem ite_any_sumPresent (tokens : UsageGroup → Option ℤ) (groups : List UsageGroup) :
    (if groups.any fun group => (tokens group).isSome then sumPresent (groups.map tokens)
      else none) = sumPresent (groups.map tokens) := by
  split
  · rfl
  · rename_i hnone
    refine (sumPresent_eq_none.mpr fun value hvalue => ?_).symm
    obtain ⟨group, hgroup, rfl⟩ := List.mem_map.mp hvalue
    have habsent : ¬ (tokens group).isSome = true := fun hsome =>
      hnone (List.any_eq_true.mpr ⟨group, hgroup, hsome⟩)
    simpa using habsent

theorem llmUsageTotals_sumsUp : (llmUsageTotals dayText p95 traces since upTo).SumsUp
    (aggregate dayText p95 traces ⟨since, upTo, .status⟩).groups := by
  constructor <;> simp only [llmUsageTotals, foldl_addGroup, Option.merge_none_left,
    ← sumPresent_eq_total, ← sum_eq_total, ite_any_sumPresent, Nat.zero_add]

/-- Any total that a row takes of its own traces, the page takes of the traces of its range. -/
theorem total_page {M : Type*} {op : M → M → M} {e : M} [Std.Associative op]
    [Std.Commutative op] [Std.LawfulIdentity op e] {query : LlmUsageQuery}
    {ofGroup : UsageGroup → M} (ofTrace : LlmTraceRecord → M)
    (h : ∀ key, ∀ rows : List LlmTraceRecord, rows ⊆ traces →
      ofGroup (.ofRow (usageRow p95 key rows)) = total op e ofTrace rows) :
    total op e ofGroup (aggregate dayText p95 traces query).groups =
      total op e ofTrace (tracesWithin traces query.since query.upTo) := by
  have hsub : tracesWithin traces query.since query.upTo ⊆ traces := List.filter_subset_self _
  have hkeys : (groupKeys (groupKey dayText query.groupBy)
      (tracesWithin traces query.since query.upTo)).Nodup := groupKeys_nodup
  have hcover : ∀ trace ∈ tracesWithin traces query.since query.upTo,
      groupKey dayText query.groupBy trace ∈ groupKeys (groupKey dayText query.groupBy)
        (tracesWithin traces query.since query.upTo) :=
    fun trace htrace => mem_groupKeys.mpr ⟨trace, htrace, rfl⟩
  rw [aggregate, usageRows, List.map_map, total_map, ← total_groups ofTrace hkeys hcover]
  congr 1
  funext key
  exact h key _ fun trace htrace => hsub (mem_group.mp htrace).1

/-- The groups of two pages of one range come to the same totals, whatever they group by. -/
theorem DashboardLlmUsage.SumsUp.regroup {totals : DashboardLlmUsage} {other : LlmGroupBy}
    (h : totals.SumsUp (aggregate dayText p95 traces ⟨since, upTo, other⟩).groups) :
    totals.SumsUp (aggregate dayText p95 traces ⟨since, upTo, groupBy⟩).groups := by
  have hcount : ∀ (ofGroup : UsageGroup → ℕ) (ofTrace : LlmTraceRecord → ℕ),
      (∀ key rows, ofGroup (.ofRow (usageRow p95 key rows)) = total (· + ·) 0 ofTrace rows) →
      ((aggregate dayText p95 traces ⟨since, upTo, other⟩).groups.map ofGroup).sum =
        ((aggregate dayText p95 traces ⟨since, upTo, groupBy⟩).groups.map ofGroup).sum := by
    intro ofGroup ofTrace hrow
    rw [sum_eq_total, sum_eq_total, total_page ofTrace fun key rows _ => hrow key rows,
      total_page ofTrace fun key rows _ => hrow key rows]
  have htokens : ∀ (ofGroup : UsageGroup → Option ℤ) (ofTrace : LlmTraceRecord → Option ℤ),
      (∀ key rows, ofGroup (.ofRow (usageRow p95 key rows)) = sumPresent (rows.map ofTrace)) →
      sumPresent ((aggregate dayText p95 traces ⟨since, upTo, other⟩).groups.map ofGroup) =
        sumPresent ((aggregate dayText p95 traces ⟨since, upTo, groupBy⟩).groups.map ofGroup) := by
    intro ofGroup ofTrace hrow
    simp only [sumPresent_eq_total] at hrow ⊢
    rw [total_page ofTrace fun key rows _ => hrow key rows,
      total_page ofTrace fun key rows _ => hrow key rows]
  constructor
  · rw [h.calls]
    exact hcount _ (fun _ => 1) fun key rows => length_eq_total
  · rw [h.unknownUsageCalls]
    exact hcount _ _ fun key rows => countP_eq_total _
  · rw [h.errors]
    exact hcount _ _ fun key rows => countP_eq_total _
  · exact h.inputTokens.trans (htokens _ _ fun key rows => rfl)
  · exact h.outputTokens.trans (htokens _ _ fun key rows => rfl)
  · exact h.totalTokens.trans (htokens _ _ fun key rows => rfl)

/-! ### The groups of traces that the program leaves -/

/-- What holds of a group of coherent traces. -/
structure UsageGroup.Sound (group : UsageGroup) : Prop where
  some_call : 0 < group.calls
  errors_le : group.errors ≤ group.unknownUsageCalls
  unknown_le : group.unknownUsageCalls ≤ group.calls
  inputTokens : group.inputTokens = none ↔ group.unknownUsageCalls = group.calls
  outputTokens : group.outputTokens = none ↔ group.unknownUsageCalls = group.calls
  totalTokens : group.totalTokens = none ↔ group.unknownUsageCalls = group.calls
  priced : ∀ cost ∈ group.estimatedCost,
    cost.currency = "USD" ∧ cost.priceVersion = "static_config_v1"

section Coherent

variable {rows : List LlmTraceRecord} {row : LlmTraceRecord}

theorem unavailable_iff (h : row.Coherent) :
    (row.usageStatus = "unavailable" ↔ row.inputTokens = none) ∧
      (row.usageStatus = "unavailable" ↔ row.outputTokens = none) ∧
      (row.usageStatus = "unavailable" ↔ row.totalTokens = none) := by
  rcases h.usage with ⟨hstatus, hinput, houtput, htotal⟩ |
    ⟨input, output, hstatus, hinput, houtput, htotal⟩
  · simp [hstatus, hinput, houtput, htotal]
  · simp [hstatus, hinput, houtput, htotal]

/-- Tokens are missing from a group exactly when no call of it reported its usage. -/
theorem sumPresent_tokens {tokens : LlmTraceRecord → Option Int32}
    (h : ∀ row ∈ rows, row.usageStatus = "unavailable" ↔ tokens row = none) :
    sumPresent (rows.map fun row => (tokens row).map Int32.toInt) = none ↔
      (rows.countP fun row => row.usageStatus = "unavailable") = rows.length := by
  rw [sumPresent_eq_none, List.countP_eq_length, List.forall_mem_map]
  exact forall₂_congr fun row hrow => by simp [h row hrow]

theorem min?_const {texts : List String} {text : String} (h : ∀ t ∈ texts, t = text) :
    texts.min? = if texts = [] then none else some text := by
  induction texts with
  | nil => rfl
  | cons first texts ih =>
    obtain ⟨hfirst, hrest⟩ := List.forall_mem_cons.mp h
    rw [List.min?_cons, ih hrest, hfirst]
    by_cases htexts : texts = [] <;> simp [htexts]

/-- Rows of one price have one price version at most. -/
theorem priceVersions_le_one (h : ∀ row ∈ rows, row.Coherent) (key : String) :
    (usageRow p95 key rows).priceVersions ≤ 1 := by
  have hprice : ((rows.filter fun row => row.costUsd.isSome).map fun row =>
      (row.costCurrency, row.priceVersion)) ⊆ [(some "USD", some "static_config_v1")] := by
    intro price hmem
    obtain ⟨row, hrow, rfl⟩ := List.mem_map.mp hmem
    obtain ⟨hrow, hcost⟩ := List.mem_filter.mp hrow
    rcases (h row hrow).priced with ⟨hnone, -, -⟩ | ⟨hcurrency, hversion⟩
    · rw [hnone] at hcost
      cases hcost
    · rw [hcurrency, hversion]
      exact List.mem_singleton_self _
  exact (List.subperm_of_subset (List.nodup_dedup _)
    (List.Subset.trans (List.dedup_subset _) hprice)).length_le

/-- The price of a group is that of each of its rows. -/
theorem min?_price {text : String} {column : LlmTraceRecord → Option String}
    (h : ∀ row ∈ rows, column row = none ∨ column row = some text) :
    (rows.filterMap column).min? = none ∨ (rows.filterMap column).min? = some text := by
  have hall : ∀ t ∈ rows.filterMap column, t = text := by
    intro t ht
    obtain ⟨row, hrow, hcolumn⟩ := List.mem_filterMap.mp ht
    rcases h row hrow with hnone | hsome
    · rw [hnone] at hcolumn
      cases hcolumn
    · exact Option.some.inj (hcolumn.symm.trans hsome)
  rw [min?_const hall]
  split
  · exact .inl rfl
  · exact .inr rfl

theorem min?_price_of_mem {text : String} {column : LlmTraceRecord → Option String}
    (h : ∀ row ∈ rows, column row = none ∨ column row = some text) (hrow : row ∈ rows)
    (hsome : column row = some text) : (rows.filterMap column).min? = some text := by
  refine (min?_price h).resolve_left fun hnone => ?_
  have hmem : text ∈ rows.filterMap column := List.mem_filterMap.mpr ⟨row, hrow, hsome⟩
  rw [List.min?_eq_none_iff.mp hnone] at hmem
  cases hmem

theorem currency_cases (h : ∀ row ∈ rows, row.Coherent) :
    ∀ row ∈ rows, row.costCurrency = none ∨ row.costCurrency = some "USD" := by
  intro row hrow
  rcases (h row hrow).priced with ⟨-, hnone, -⟩ | ⟨hsome, -⟩
  · exact .inl hnone
  · exact .inr hsome

theorem version_cases (h : ∀ row ∈ rows, row.Coherent) :
    ∀ row ∈ rows, row.priceVersion = none ∨ row.priceVersion = some "static_config_v1" := by
  intro row hrow
  rcases (h row hrow).priced with ⟨-, -, hnone⟩ | ⟨-, hsome⟩
  · exact .inl hnone
  · exact .inr hsome

/-- The cost of a group is what its rows cost. -/
theorem estimatedCost_amount (h : ∀ row ∈ rows, row.Coherent) (key : String) :
    (UsageGroup.ofRow (usageRow p95 key rows)).estimatedCost.map UsageCost.amount =
      sumPresent (rows.map LlmTraceRecord.costUsd) := by
  have hone : (usageRow p95 key rows).priceVersions ≤ 1 := priceVersions_le_one h key
  simp only [UsageGroup.ofRow, if_pos hone]
  cases hamount : sumPresent (rows.map LlmTraceRecord.costUsd) with
  | none => simp [usageRow, hamount]
  | some amount =>
    obtain ⟨cost, hcost, hsome⟩ : ∃ cost ∈ rows.map LlmTraceRecord.costUsd, cost ≠ none := by
      by_contra hall
      push Not at hall
      rw [sumPresent_eq_none.mpr hall] at hamount
      cases hamount
    obtain ⟨row, hrow, rfl⟩ := List.mem_map.mp hcost
    obtain ⟨hcurrency, hversion⟩ : row.costCurrency = some "USD" ∧
        row.priceVersion = some "static_config_v1" :=
      (h row hrow).priced.resolve_left fun hfree => hsome hfree.1
    simp [usageRow, hamount, min?_price_of_mem (currency_cases h) hrow hcurrency,
      min?_price_of_mem (version_cases h) hrow hversion]

theorem usageRow_sound (h : ∀ row ∈ rows, row.Coherent) (hne : rows ≠ []) (key : String) :
    (UsageGroup.ofRow (usageRow p95 key rows)).Sound where
  some_call := List.length_pos_iff.mpr hne
  errors_le := List.countP_mono_left fun row hrow herror => by
    simpa using (h row hrow).failed (by simpa using herror)
  unknown_le := List.countP_le_length
  inputTokens := sumPresent_tokens fun row hrow => (unavailable_iff (h row hrow)).1
  outputTokens := sumPresent_tokens fun row hrow => (unavailable_iff (h row hrow)).2.1
  totalTokens := sumPresent_tokens fun row hrow => (unavailable_iff (h row hrow)).2.2
  priced := by
    intro cost hcost
    have hone : (usageRow p95 key rows).priceVersions ≤ 1 := priceVersions_le_one h key
    simp only [UsageGroup.ofRow, if_pos hone, Option.mem_def] at hcost
    obtain ⟨amount, -, hcost⟩ := Option.bind_eq_some_iff.mp hcost
    obtain ⟨currency, hcurrency, hcost⟩ := Option.bind_eq_some_iff.mp hcost
    obtain ⟨version, hversion, hcost⟩ := Option.bind_eq_some_iff.mp hcost
    obtain rfl := Option.some.inj hcost
    constructor
    · rcases min?_price (currency_cases h) with hnone | hsome
      · cases hnone.symm.trans hcurrency
      · exact Option.some.inj (hcurrency.symm.trans hsome)
    · rcases min?_price (version_cases h) with hnone | hsome
      · cases hnone.symm.trans hversion
      · exact Option.some.inj (hversion.symm.trans hsome)

/-- Where no call counts more tokens than fit into an integer, a group's total is the sum of what
went in and what came out. -/
theorem sumPresent_totalTokens (h : ∀ row ∈ rows, row.Coherent)
    (hfits : ∀ row ∈ rows, row.Fits) :
    sumPresent (rows.map fun row => row.totalTokens.map Int32.toInt) =
      Option.merge (· + ·) (sumPresent (rows.map fun row => row.inputTokens.map Int32.toInt))
        (sumPresent (rows.map fun row => row.outputTokens.map Int32.toInt)) := by
  have hrow : (rows.map fun row => row.totalTokens.map Int32.toInt) = rows.map fun row =>
      Option.merge (· + ·) (row.inputTokens.map Int32.toInt)
        (row.outputTokens.map Int32.toInt) := by
    refine List.map_congr_left fun row hmem => ?_
    rcases (h row hmem).usage with ⟨-, hinput, houtput, htotal⟩ |
      ⟨input, output, -, hinput, houtput, htotal⟩
    · rw [hinput, houtput, htotal]
      rfl
    · obtain ⟨hleast, hmost⟩ := hfits row hmem input hinput output houtput
      have hadd : (input + output).toInt = input.toInt + output.toInt := by
        rw [Int32.toInt_add]
        exact Int.bmod_eq_of_le hleast hmost
      rw [hinput, houtput, htotal, Option.map_some, hadd]
      rfl
  rw [hrow, sumPresent_eq_total, sumPresent_eq_total, sumPresent_eq_total, total_op]

end Coherent

/-- Every row of the page is made of traces of the table, and of one at least. -/
theorem exists_of_mem_usageRows {query : LlmUsageQuery} {row : UsageRow}
    (h : row ∈ usageRows dayText p95 traces query) :
    ∃ key, ∃ rows : List LlmTraceRecord,
      row = usageRow p95 key rows ∧ rows ≠ [] ∧ rows ⊆ traces := by
  obtain ⟨key, hkey, rfl⟩ := List.mem_map.mp h
  obtain ⟨trace, htrace, hof⟩ := mem_groupKeys.mp hkey
  refine ⟨key, _, rfl, List.ne_nil_of_mem (mem_group.mpr ⟨htrace, hof⟩), fun trace hmem => ?_⟩
  exact (List.mem_filter.mp (mem_group.mp hmem).1).1

theorem total_pos_iff {α : Type*} (f : α → ℕ) (items : List α) :
    0 < total (· + ·) 0 f items ↔ ∃ a ∈ items, 0 < f a := by
  induction items with
  | nil => simp
  | cons a items ih => rw [total_cons, Nat.add_pos_iff_pos_or_pos, ih, List.exists_mem_cons_iff]

/-- The only warning is that a call of the range reported no usage. -/
theorem aggregate_warnings (h : ∀ row ∈ traces, row.Coherent) (query : LlmUsageQuery) :
    (aggregate dayText p95 traces query).warnings =
      if 0 < total (· + ·) 0 UsageGroup.unknownUsageCalls
          (aggregate dayText p95 traces query).groups then [.usageMissing] else [] := by
  have hmismatch : ((usageRows dayText p95 traces query).any fun row => 1 < row.priceVersions) =
      false := by
    rw [List.any_eq_false]
    intro row hrow
    obtain ⟨key, rows, rfl, -, hsub⟩ := exists_of_mem_usageRows hrow
    have hone : (usageRow p95 key rows).priceVersions ≤ 1 :=
      priceVersions_le_one (fun row hrow => h row (hsub hrow)) key
    simpa using hone
  have hmissing : ((usageRows dayText p95 traces query).any fun row => 0 < row.unknownUsage) =
      decide (0 < total (· + ·) 0 UsageGroup.unknownUsageCalls
        (aggregate dayText p95 traces query).groups) := by
    rw [Bool.eq_iff_iff, decide_eq_true_iff, aggregate, total_map, total_pos_iff]
    simp [UsageGroup.ofRow]
  simp only [aggregate, hmismatch] at hmissing ⊢
  rw [hmissing]
  split <;> simp_all

theorem llmUsageTotals_warnings (h : ∀ row ∈ traces, row.Coherent) :
    (llmUsageTotals dayText p95 traces since upTo).warnings =
      if 0 < (llmUsageTotals dayText p95 traces since upTo).unknownUsageCalls then
        [.usageMissing] else [] := by
  simp only [llmUsageTotals, foldl_addGroup, aggregate_warnings h, Nat.zero_add]
  split <;> simp_all

theorem aggregate_cost (h : ∀ row ∈ traces, row.Coherent) (query : LlmUsageQuery) :
    sumPresent ((aggregate dayText p95 traces query).groups.map fun group =>
        group.estimatedCost.map UsageCost.amount) =
      sumPresent ((tracesWithin traces query.since query.upTo).map LlmTraceRecord.costUsd) := by
  rw [sumPresent_eq_total, sumPresent_eq_total]
  refine total_page LlmTraceRecord.costUsd fun key rows hsub => ?_
  rw [← sumPresent_eq_total]
  exact estimatedCost_amount (fun row hrow => h row (hsub hrow)) key

/-- Tokens that add up in each group add up in the totals. -/
theorem DashboardLlmUsage.SumsUp.totalTokens_eq {totals : DashboardLlmUsage}
    {groups : List UsageGroup} (h : totals.SumsUp groups)
    (hgroups : ∀ group ∈ groups, group.totalTokens =
      Option.merge (· + ·) group.inputTokens group.outputTokens) :
    totals.totalTokens = Option.merge (· + ·) totals.inputTokens totals.outputTokens := by
  rw [h.totalTokens, h.inputTokens, h.outputTokens, List.map_congr_left hgroups,
    sumPresent_eq_total, sumPresent_eq_total, sumPresent_eq_total, total_op]

/-- Whatever the usage page groups by, the dashboard shows the totals of its groups and warns of
the same. On the traces that the program leaves, a group without usage is one of failed or
unreported calls, no cost is lost and the tokens add up. -/
theorem dashboard_agrees_with_usage_page {F : Type} {lower : String → String}
    {decimal : F → Option ℚ} (h : Traced lower decimal traces) (since upTo : ℤ)
    (groupBy : LlmGroupBy) :
    let page := aggregate dayText p95 traces ⟨since, upTo, groupBy⟩
    let totals := llmUsageTotals dayText p95 traces since upTo
    totals.SumsUp page.groups ∧ totals.warnings = page.warnings ∧
      (totals.warnings = if 0 < totals.unknownUsageCalls then [.usageMissing] else []) ∧
      (∀ group ∈ page.groups, group.Sound) ∧
      sumPresent (page.groups.map fun group => group.estimatedCost.map UsageCost.amount) =
        sumPresent ((tracesWithin traces since upTo).map LlmTraceRecord.costUsd) ∧
      ((∀ row ∈ traces, row.Fits) → totals.totalTokens =
          Option.merge (· + ·) totals.inputTokens totals.outputTokens ∧
        ∀ group ∈ page.groups, group.totalTokens =
          Option.merge (· + ·) group.inputTokens group.outputTokens) := by
  intro page totals
  have hcoherent : ∀ row ∈ traces, row.Coherent := h.coherent
  have hsums : totals.SumsUp page.groups := llmUsageTotals_sumsUp.regroup
  have hwarnings : totals.warnings = if 0 < totals.unknownUsageCalls then [.usageMissing] else [] :=
    llmUsageTotals_warnings hcoherent
  refine ⟨hsums, ?_, hwarnings, ?_, aggregate_cost hcoherent _, fun hfits => ?_⟩
  · have hpage : page.warnings = _ := aggregate_warnings hcoherent _
    rw [hpage, hwarnings, hsums.unknownUsageCalls, sum_eq_total]
  · intro group hgroup
    obtain ⟨row, hrow, rfl⟩ := List.mem_map.mp hgroup
    obtain ⟨key, rows, rfl, hne, hsub⟩ := exists_of_mem_usageRows hrow
    exact usageRow_sound (fun row hrow => hcoherent row (hsub hrow)) hne key
  · have hgroups : ∀ group ∈ page.groups, group.totalTokens =
        Option.merge (· + ·) group.inputTokens group.outputTokens := by
      intro group hgroup
      obtain ⟨row, hrow, rfl⟩ := List.mem_map.mp hgroup
      obtain ⟨key, rows, rfl, -, hsub⟩ := exists_of_mem_usageRows hrow
      exact sumPresent_totalTokens (fun row hrow => hcoherent row (hsub hrow))
        fun row hrow => hfits row (hsub hrow)
    exact ⟨hsums.totalTokens_eq hgroups, hgroups⟩

end Groups

/-! ### One question -/

namespace OneQuestion

def context : LlmTraceContext := ⟨some 1, some 2, 3, none, none, none, none, none, none⟩

def inner : InnerClient := ⟨("openai", "small"), ("voyage", "large")⟩

def answered : LlmCall ℚ :=
  .structuredValue .routeIntent
    (.ok ⟨.null, .providerReported 10 5, some (1 / 1000), "openai", "small", 420⟩)

def unanswered : LlmCall ℚ := .embed .routeEmbedding (.error ⟨"Embedding request timed out", []⟩)

def answeredRow : LlmTraceRecord where
  id := 11
  context := context
  purpose := "route_intent"
  provider := "openai"
  model := "small"
  inputTokens := some 10
  outputTokens := some 5
  totalTokens := some 15
  usageStatus := "provider_reported"
  costUsd := some (1 / 1000)
  priceVersion := some "static_config_v1"
  costCurrency := some "USD"
  latencyMs := 420
  status := "ok"
  errorKind := none
  errorCode := none
  createdAt := 1000

def unansweredRow : LlmTraceRecord where
  id := 12
  context := context
  purpose := "route_embedding"
  provider := "voyage"
  model := "large"
  inputTokens := none
  outputTokens := none
  totalTokens := none
  usageStatus := "unavailable"
  costUsd := none
  priceVersion := none
  costCurrency := none
  latencyMs := 0
  status := "timeout"
  errorKind := some "Embedding request timed out"
  errorCode := some "provider_timeout"
  createdAt := 2000

theorem traced : Traced Text.asciiLower (some : ℚ → Option ℚ) [answeredRow, unansweredRow] := by
  refine .tail (b := [answeredRow]) (.tail .refl ?_) ?_
  · exact .stored inner (some context) answered 11 1000 rfl rfl
  · exact .stored inner (some context) unanswered 12 2000 rfl rfl

/-- The page by model has two groups, and the dashboard their totals. -/
theorem totals_add_up :
    (llmUsageTotals (fun _ => "2026-07-01") (fun _ => 0) [answeredRow, unansweredRow] 0
      5000).SumsUp (aggregate (fun _ => "2026-07-01") (fun _ => 0) [answeredRow, unansweredRow]
        ⟨0, 5000, .model⟩).groups :=
  (dashboard_agrees_with_usage_page traced 0 5000 .model).1

end OneQuestion

end FineractReports.Management
