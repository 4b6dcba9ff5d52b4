import FineractReports.Assistant.TemporalResolution
import FineractReports.Job.ClarificationResponse

/-!
# Two limits on the length of a range

The clarification form counts the days from the first date to the last, the extractor counts
the days of the range with both ends. A range of the form's longest length is one day too
long for the extractor; on every other range they agree.
-/

namespace FineractReports.Job

open FineractReports.Extraction

/-- An answer to a date range field that names the two dates. -/
structure AnswersRange (parseDate : String → Option NaiveDate) (value : Json)
    (fromDate toDate : NaiveDate) : Prop where
  members : ∃ members, value = .obj members ∧ members.length = 2
  start : ∃ text, value.get? "from" = some (.str text) ∧ parseDate text = some fromDate
  stop : ∃ text, value.get? "to" = some (.str text) ∧ parseDate text = some toDate

def NoLeadIn (tokens : List Token) : Prop := ∀ token ∈ tokens, isLeadIn token.text = false

instance (tokens : List Token) : Decidable (NoLeadIn tokens) := by
  unfold NoLeadIn
  infer_instance

def NoLink (tokens : List Token) : Prop := ∀ token ∈ tokens, isLink token.text = false

/-- The words of a message that states a range between two dates. -/
inductive StatesRange (parseDate : String → Option NaiveDate) (fromDate toDate : NaiveDate) :
    List Token → Prop
  /-- "from DATE to DATE", in other words. -/
  | led {before after : List Token} {lead first link last : Token}
      (hwords : (lead.text = "from" ∧ link.text = "to") ∨
        (lead.text = "dari" ∧ link.text = "sampai"))
      (hmonth : monthNumber first.text = none)
      (hfirst : parseDate first.text = some fromDate) (hlast : parseDate last.text = some toDate)
      (hbefore : NoLeadIn before) (hdates : NoLeadIn [first, last]) (hafter : NoLeadIn after) :
      StatesRange parseDate fromDate toDate (before ++ lead :: first :: link :: last :: after)
  /-- "DATE to DATE", in other words. -/
  | bare {before after : List Token} {first link last : Token} (hlink : isLink link.text = true)
      (hfirstIso : looksLikeIsoDate first.text = true)
      (hlastIso : looksLikeIsoDate last.text = true)
      (hfirst : parseDate first.text = some fromDate) (hlast : parseDate last.text = some toDate)
      (hlead : NoLeadIn (before ++ first :: link :: last :: after))
      (hbefore : NoLink before) :
      StatesRange parseDate fromDate toDate (before ++ first :: link :: last :: after)

section Windows

variable {tokens : List Token} {flow : Flow} {flows rest : List Flow}

theorem firstOf_append_next (h : ∀ flow ∈ flows, flow = .next) :
    firstOf (flows ++ rest) = firstOf rest := by
  induction flows with
  | nil => rfl
  | cons flow flows ih =>
    rw [h flow List.mem_cons_self]
    exact ih fun other hother => h other (List.mem_cons_of_mem _ hother)

theorem firstOf_append_done {outcome : Except TemporalError (Option ResolvedTemporal)}
    (h : firstOf flows = .done outcome) : firstOf (flows ++ rest) = .done outcome := by
  induction flows with
  | nil => cases h
  | cons flow flows ih =>
    cases flow with
    | next => exact ih h
    | done other => exact h
    | panic => cases h

/-- Windows that begin before a place and pass on are passed over. -/
theorem firstOf_windows {count : ℕ} {read : List Token → Flow} {before after : List Token}
    (hcount : count ≤ after.length)
    (h : ∀ i < before.length, read (((before ++ after).drop i).take count) = .next) :
    firstOf ((windows count (before ++ after)).map read) =
      firstOf ((windows count after).map read) := by
  induction before with
  | nil => rfl
  | cons token before ih =>
    have hlength : count ≤ (token :: (before ++ after)).length := by
      simp only [List.length_cons, List.length_append]
      omega
    have hfirst := h 0 (by simp)
    rw [List.drop_zero, List.cons_append] at hfirst
    rw [List.cons_append, windows, if_pos hlength, List.map_cons, hfirst]
    apply ih
    intro i hi
    exact h (i + 1) (by simpa using hi)

/-- The window at the place itself. -/
theorem firstOf_windows_done {count : ℕ} {read : List Token → Flow} {before after : List Token}
    {outcome : Except TemporalError (Option ResolvedTemporal)} (hcount : count ≤ after.length)
    (hpos : 0 < after.length)
    (h : ∀ i < before.length, read (((before ++ after).drop i).take count) = .next)
    (hdone : read (after.take count) = .done outcome) :
    firstOf ((windows count (before ++ after)).map read) = .done outcome := by
  rw [firstOf_windows hcount h]
  cases after with
  | nil => cases hpos
  | cons token after =>
    rw [windows, if_pos hcount, List.map_cons, hdone]
    rfl

end Windows

section Extractor

variable {parseDate : String → Option NaiveDate} {referenceInstant : ℤ} {today : NaiveDate}
  {maxRangeDays : ℤ} {fromDate toDate : NaiveDate} {tokens : List Token}

/-- A message states a period when the range is in order and within the limit. -/
theorem finish_done (span : ℕ × ℕ) (rule : String) :
    ∃ outcome, finish referenceInstant maxRangeDays fromDate toDate rule span = .done outcome ∧
      ((∃ resolved, outcome = .ok (some resolved)) ↔ ¬ toDate.before fromDate ∧
        0 < maxRangeDays ∧ toDate.dayNumber - fromDate.dayNumber + 1 ≤ maxRangeDays) := by
  unfold finish
  split_ifs with hreversed hlarge
  · exact ⟨_, rfl, by simp [hreversed]⟩
  · refine ⟨.error _, rfl, ?_⟩
    constructor
    · rintro ⟨resolved, hresolved⟩
      cases hresolved
    · intro h
      omega
  · refine ⟨_, rfl, ?_⟩
    push Not at hlarge
    simp [hreversed, hlarge]

theorem monthRangeAt_next {start : ℕ} (hstart : start < tokens.length)
    (h : isLeadIn tokens[start].text = false ∨ monthExpr tokens (start + 1) = none) :
    monthRangeAt referenceInstant today maxRangeDays tokens start = .next := by
  unfold monthRangeAt
  rw [List.getElem?_eq_getElem hstart, Flow.expect]
  split_ifs with hlead
  · rfl
  · rcases h with hno | hnone
    · exact absurd hno hlead
    · rw [hnone]

theorem monthExpr_none {index : ℕ} {token : Token} (htoken : tokens[index]? = some token)
    (h : monthNumber token.text = none) : monthExpr tokens index = none := by
  simp only [monthExpr, htoken, h, Option.bind_eq_bind, Option.bind_some, Option.bind_none]

theorem explicitRange_next {window : List Token}
    (h : ∀ token ∈ window.head?, isLeadIn token.text = false) :
    explicitRange parseDate referenceInstant maxRangeDays window = .next := by
  unfold explicitRange
  split
  · rename_i lead first link last
    have hlead := h lead rfl
    simp only [isLeadIn, decide_eq_false_iff_not, not_or] at hlead
    rw [if_neg (by tauto)]
  · rfl

theorem bareRange_next {window : List Token}
    (h : ∀ token ∈ window[1]?, isLink token.text = false) :
    bareRange parseDate referenceInstant maxRangeDays window = .next := by
  unfold bareRange
  split
  · rename_i first link last
    have hlink := h link rfl
    rw [if_neg (by simp [hlink])]
  · rfl

theorem iso_isLink {word : String} (h : looksLikeIsoDate word = true) : isLink word = false := by
  apply Bool.eq_false_iff.mpr
  intro hlink
  simp only [isLink, decide_eq_true_eq] at hlink
  rcases hlink with rfl | rfl
  · exact absurd h (by decide)
  · exact absurd h (by decide)

/-- No month name follows a lead-in anywhere. -/
def NoMonthRange (tokens : List Token) : Prop :=
  ∀ (start : ℕ) (h : start < tokens.length), isLeadIn tokens[start].text = false ∨
    monthExpr tokens (start + 1) = none

theorem firstOf_monthRanges {rest : List Flow} (h : NoMonthRange tokens) :
    firstOf ((List.range tokens.length).map
      (monthRangeAt referenceInstant today maxRangeDays tokens) ++ rest) = firstOf rest := by
  apply firstOf_append_next
  intro flow hflow
  obtain ⟨start, hstart, rfl⟩ := List.mem_map.mp hflow
  have hlt := List.mem_range.mp hstart
  exact monthRangeAt_next hlt (h start hlt)

theorem resolveTokens_of_range {outcome : Except TemporalError (Option ResolvedTemporal)}
    (hmonth : NoMonthRange tokens)
    (h : firstOf ((windows 4 tokens).map
        (explicitRange parseDate referenceInstant maxRangeDays)) = .done outcome ∨
      (∀ window ∈ windows 4 tokens,
        explicitRange parseDate referenceInstant maxRangeDays window = .next) ∧
      firstOf ((windows 3 tokens).map
        (bareRange parseDate referenceInstant maxRangeDays)) = .done outcome) :
    resolveTokens parseDate referenceInstant today maxRangeDays tokens = some outcome := by
  simp only [resolveTokens, recognisers, List.append_assoc]
  rw [firstOf_monthRanges hmonth]
  rcases h with hexplicit | ⟨hnext, hbare⟩
  · rw [firstOf_append_done hexplicit]
  · have hall : ∀ flow ∈ (windows 4 tokens).map
        (explicitRange parseDate referenceInstant maxRangeDays), flow = .next := by
      intro flow hflow
      obtain ⟨window, hwindow, rfl⟩ := List.mem_map.mp hflow
      exact hnext window hwindow
    rw [firstOf_append_next hall, firstOf_append_done hbare]

/-- Reading a message that states a range comes down to finishing it. -/
theorem resolveTokens_statesRange (h : StatesRange parseDate fromDate toDate tokens) :
    ∃ rule span outcome,
      finish referenceInstant maxRangeDays fromDate toDate rule span = .done outcome ∧
      resolveTokens parseDate referenceInstant today maxRangeDays tokens = some outcome := by
  cases h with
  | @led before after lead first link last hwords hmonth hfirst hlast hbefore hdates hafter =>
    obtain ⟨outcome, hdone, -⟩ := @finish_done referenceInstant maxRangeDays fromDate toDate
      (lead.start, last.stop) "inclusive_explicit_range"
    refine ⟨_, _, outcome, hdone, ?_⟩
    have hlink : isLeadIn link.text = false := by
      rcases hwords with ⟨-, hto⟩ | ⟨-, hsampai⟩
      · rw [hto]
        decide
      · rw [hsampai]
        decide
    have hnoMonth : NoMonthRange (before ++ lead :: first :: link :: last :: after) := by
      intro start hstart
      rcases Nat.lt_trichotomy start before.length with hlt | heq | hgt
      · left
        rw [List.getElem_append_left hlt]
        exact hbefore _ (List.getElem_mem hlt)
      · right
        apply monthExpr_none _ hmonth
        subst heq
        rw [List.getElem?_append_right (by omega)]
        simp
      · left
        have hrest : ∀ token ∈ first :: link :: last :: after, isLeadIn token.text = false := by
          simp only [List.forall_mem_cons]
          exact ⟨hdates first (by simp), hlink, hdates last (by simp), hafter⟩
        apply hrest
        obtain ⟨offset, rfl⟩ := Nat.exists_eq_add_of_lt hgt
        rw [List.getElem_append_right (by omega)]
        simp only [show before.length + offset + 1 - before.length = offset + 1 by omega,
          List.getElem_cons_succ]
        exact List.getElem_mem _
    have hread : explicitRange parseDate referenceInstant maxRangeDays [lead, first, link, last] =
        .done outcome := by
      simp only [explicitRange, if_pos hwords, withDate, hfirst, hlast, hdone]
    have hwindows : firstOf ((windows 4 (before ++ lead :: first :: link :: last :: after)).map
        (explicitRange parseDate referenceInstant maxRangeDays)) = .done outcome := by
      apply firstOf_windows_done (by simp) (by simp) _ hread
      intro i hi
      apply explicitRange_next
      intro token htoken
      rw [List.head?_take, if_neg (by decide), List.head?_drop,
        List.getElem?_append_left hi] at htoken
      exact hbefore token (List.mem_of_getElem? htoken)
    exact resolveTokens_of_range hnoMonth (Or.inl hwindows)
  | @bare before after first link last hlink hfirstIso hlastIso hfirst hlast hlead hbefore =>
    obtain ⟨outcome, hdone, -⟩ := @finish_done referenceInstant maxRangeDays fromDate toDate
      (first.start, last.stop) "inclusive_explicit_range"
    refine ⟨_, _, outcome, hdone, ?_⟩
    have hnoMonth : NoMonthRange (before ++ first :: link :: last :: after) :=
      fun start hstart => Or.inl (hlead _ (List.getElem_mem hstart))
    have hread : bareRange parseDate referenceInstant maxRangeDays [first, link, last] =
        .done outcome := by
      have hstated : isLink link.text = true ∧ looksLikeIsoDate first.text = true ∧
          looksLikeIsoDate last.text = true := ⟨hlink, hfirstIso, hlastIso⟩
      simp only [bareRange, if_pos hstated, withDate, hfirst, hlast, hdone]
    have hexplicit : ∀ window ∈ windows 4 (before ++ first :: link :: last :: after),
        explicitRange parseDate referenceInstant maxRangeDays window = .next := by
      intro window hwindow
      apply explicitRange_next
      intro token htoken
      obtain ⟨place, hplace, rfl⟩ := windows_mem hwindow
      apply hlead
      exact List.mem_of_mem_drop (List.mem_of_mem_take (List.mem_of_mem_head? htoken))
    have hwindows : firstOf ((windows 3 (before ++ first :: link :: last :: after)).map
        (bareRange parseDate referenceInstant maxRangeDays)) = .done outcome := by
      apply firstOf_windows_done (by simp) (by simp) _ hread
      intro i hi
      apply bareRange_next
      intro token htoken
      rw [List.getElem?_take_of_lt (by omega), List.getElem?_drop] at htoken
      rcases Nat.lt_or_ge (i + 1) before.length with hlt | hge
      · rw [List.getElem?_append_left hlt] at htoken
        exact hbefore token (List.mem_of_getElem? htoken)
      · rw [List.getElem?_append_right hge, show i + 1 - before.length = 0 by omega] at htoken
        cases htoken
        exact iso_isLink hfirstIso
    exact resolveTokens_of_range hnoMonth (Or.inr ⟨hexplicit, hwindows⟩)

end Extractor

section Limits

variable {parseDate : String → Option NaiveDate} {fromDate toDate : NaiveDate}

/-- The form takes a range in order whose last date is at most the limit after the first. -/
theorem validateField_range_iff {field : ClarificationField} {target : Option ConstraintField}
    {value : Json} {patch : ConstraintPatch} {limit : ℕ} (hfield : field.fieldType = .dateRange)
    (hlimit : field.validation.maxRangeDays = some limit)
    (h : AnswersRange parseDate value fromDate toDate) :
    (∃ patched, validateField parseDate field target value patch = .ok patched) ↔
      ¬ toDate.before fromDate ∧ toDate.dayNumber - fromDate.dayNumber ≤ limit := by
  obtain ⟨members, rfl, hlength⟩ := h.members
  obtain ⟨start, hstart, hfrom⟩ := h.start
  obtain ⟨stop, hstop, hto⟩ := h.stop
  simp only [validateField, hfield, validateDateRange, hlength, hstart, hstop, Option.bind_some,
    Json.asStr?, hfrom, hto, hlimit, Option.bind_eq_bind, Option.pure_def, Option.any_some,
    decide_eq_true_eq, gt_iff_lt, ne_eq, not_true_eq_false, if_false]
  split_ifs with hrefused
  · simp only [exists_false, false_iff, not_and, not_le]
    intro hordered
    exact hrefused.resolve_left hordered
  · push Not at hrefused
    simp [hrefused]

end Limits

/-- The form and the extractor agree on a range stated to both, unless its last date is exactly
the limit after its first. -/
theorem range_limits_agree_iff (parseDate : String → Option NaiveDate) (referenceInstant : ℤ)
    (today fromDate toDate : NaiveDate) (limit : ℕ) (field : ClarificationField)
    (target : Option ConstraintField) (value : Json) (patch : ConstraintPatch) (message : String)
    (hfield : field.fieldType = .dateRange) (hlimit : field.validation.maxRangeDays = some limit)
    (hvalue : AnswersRange parseDate value fromDate toDate)
    (hmessage : StatesRange parseDate fromDate toDate
      (tokensWithSpans (Text.asciiLower message))) :
    ((∃ patched, validateField parseDate field target value patch = .ok patched) ↔
      ∃ resolved, resolveTemporal parseDate referenceInstant today limit message =
        some (.ok (some resolved))) ↔
      toDate.dayNumber - fromDate.dayNumber ≠ limit := by
  rw [validateField_range_iff hfield hlimit hvalue]
  obtain ⟨rule, span, outcome, hfinish, hresolve⟩ :=
    @resolveTokens_statesRange parseDate referenceInstant today limit fromDate toDate _ hmessage
  obtain ⟨other, hother, hiff⟩ := @finish_done referenceInstant limit fromDate toDate span rule
  rw [hfinish] at hother
  cases hother
  rw [resolveTemporal, hresolve]
  simp only [Option.some.injEq]
  rw [hiff, not_before_iff]
  omega

/-! ### A range of one day more than the limit -/

namespace MonthAndDay

def january : NaiveDate := ⟨2026, 1, 1, by decide⟩

def february : NaiveDate := ⟨2026, 2, 1, by decide⟩

/-- The two dates of the message. -/
def parseDate (text : String) : Option NaiveDate :=
  if text = "2026-01-01" then some january
  else if text = "2026-02-01" then some february
  else none

def period : ClarificationField where
  key := "period"
  label := "Reporting period"
  fieldType := .dateRange
  required := true
  value := none
  defaultValue := none
  helpText := none
  validation := ⟨none, none, none, some 31⟩
  errors := []

def answer : Json := .obj [("from", .str "2026-01-01"), ("to", .str "2026-02-01")]

def message : String := "Deposits from 2026-01-01 to 2026-02-01"

theorem answer_range : AnswersRange parseDate answer january february where
  members := ⟨_, rfl, rfl⟩
  start := ⟨"2026-01-01", by decide, by decide⟩
  stop := ⟨"2026-02-01", by decide, by decide⟩

theorem message_range :
    StatesRange parseDate january february (tokensWithSpans (Text.asciiLower message)) := by
  have htokens : tokensWithSpans (Text.asciiLower message) =
      [⟨"deposits", 0, 8⟩] ++ ⟨"from", 9, 13⟩ :: ⟨"2026-01-01", 14, 24⟩ :: ⟨"to", 25, 27⟩ ::
        ⟨"2026-02-01", 28, 38⟩ :: [] := by
    decide +kernel
  rw [htokens]
  apply StatesRange.led
  · exact Or.inl ⟨rfl, rfl⟩
  · decide
  · decide
  · decide
  · decide
  · decide
  · decide

theorem message_refused : resolveTemporal parseDate 0 reportDay (31 : ℕ) message =
    some (.error ⟨"temporal_range_too_large", "The date range exceeds the capability limit."⟩) := by
  decide +kernel

/-- The form takes the 32 days under a limit of 31, the extractor refuses them. -/
theorem limits_differ :
    AnswersRange parseDate answer january february ∧
    StatesRange parseDate january february (tokensWithSpans (Text.asciiLower message)) ∧
    ¬ ((∃ patched, validateField parseDate period none answer [] = .ok patched) ↔
      ∃ resolved, resolveTemporal parseDate 0 reportDay (31 : ℕ) message =
        some (.ok (some resolved))) := by
  refine ⟨answer_range, message_range, ?_⟩
  rw [message_refused]
  intro hsame
  obtain ⟨resolved, hresolved⟩ := hsame.mp ⟨_, rfl⟩
  cases hresolved

theorem range_limits_agree_iff_monthAndDay :
    ((∃ patched, validateField parseDate period none answer [] = .ok patched) ↔
      ∃ resolved, resolveTemporal parseDate 0 reportDay (31 : ℕ) message =
        some (.ok (some resolved))) ↔ february.dayNumber - january.dayNumber ≠ (31 : ℕ) :=
  range_limits_agree_iff parseDate 0 reportDay january february 31 period none answer [] message
    rfl rfl answer_range message_range

end MonthAndDay

end FineractReports.Job
