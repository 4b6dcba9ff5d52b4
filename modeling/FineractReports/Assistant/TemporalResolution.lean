import FineractReports.Assistant.CalendarPeriods

/-!
# Well-formed periods

No recogniser panics, and what any of them resolves is a period in order, within the limit,
whose phrase begins and ends with tokens of the message.
-/

namespace FineractReports.Extraction

open FineractReports.Utf8

def inclusiveDays (resolved : ResolvedTemporal) : ℤ :=
  resolved.toDate.dayNumber - resolved.fromDate.dayNumber + 1

/-- One token stands at or before the other. -/
def Spans (tokens : List Token) (first last : Token) : Prop :=
  ∃ i j : ℕ, i ≤ j ∧ tokens[i]? = some first ∧ tokens[j]? = some last

/-- No panic, and what is resolved is in order, within the limit and spans tokens. -/
def Sound (tokens : List Token) (maxRangeDays : ℤ) : Flow → Prop
  | .next => True
  | .panic => False
  | .done outcome => ∀ resolved, outcome = .ok (some resolved) →
      ¬ resolved.toDate.before resolved.fromDate ∧ inclusiveDays resolved ≤ maxRangeDays ∧
        ∃ first last, Spans tokens first last ∧
          resolved.provenance.phraseSpan = (first.start, last.stop)

section Steps

variable {tokens : List Token} {maxRangeDays : ℤ}

theorem firstOf_sound {flows : List Flow} (h : ∀ flow ∈ flows, Sound tokens maxRangeDays flow) :
    Sound tokens maxRangeDays (firstOf flows) := by
  induction flows with
  | nil => trivial
  | cons flow rest ih =>
    have hflow := h flow List.mem_cons_self
    cases flow with
    | next => exact ih fun other hother => h other (List.mem_cons_of_mem _ hother)
    | done outcome => exact hflow
    | panic => exact hflow

theorem invalid_sound (code message : String) :
    Sound tokens maxRangeDays (.invalid code message) := by
  intro resolved hresolved
  cases hresolved

theorem expect_sound {α : Type} {value : Option α} {a : α} {f : α → Flow} (hvalue : value = some a)
    (h : Sound tokens maxRangeDays (f a)) : Sound tokens maxRangeDays (.expect value f) := by
  rw [hvalue]
  exact h

theorem withDate_sound {parseDate : String → Option NaiveDate} {word : String}
    {f : NaiveDate → Flow} (h : ∀ date, Sound tokens maxRangeDays (f date)) :
    Sound tokens maxRangeDays (withDate parseDate word f) := by
  unfold withDate
  cases parseDate word with
  | none => exact invalid_sound _ _
  | some date => exact h date

theorem finish_sound {first last : Token} (h : Spans tokens first last) (referenceInstant : ℤ)
    (fromDate toDate : NaiveDate) (rule : String) :
    Sound tokens maxRangeDays
      (finish referenceInstant maxRangeDays fromDate toDate rule (first.start, last.stop)) := by
  unfold finish
  split_ifs with hreversed hlarge
  · exact invalid_sound _ _
  · exact invalid_sound _ _
  · intro resolved hresolved
    cases hresolved
    push Not at hlarge
    exact ⟨hreversed, hlarge.2, first, last, h, rfl⟩

theorem windows_mem {α : Type} {count : ℕ} {items window : List α}
    (h : window ∈ windows count items) :
    ∃ i, i + count ≤ items.length ∧ window = (items.drop i).take count := by
  induction items with
  | nil => cases h
  | cons item rest ih =>
    rw [windows] at h
    split_ifs at h with hcount
    · rcases List.mem_cons.mp h with rfl | hrest
      · exact ⟨0, by omega, rfl⟩
      · obtain ⟨i, hi, hwindow⟩ := ih hrest
        exact ⟨i + 1, by simp only [List.length_cons]; omega, hwindow⟩
    · cases h

/-- The first and the last token of a window. -/
theorem windows_spans {count : ℕ} {window : List Token} {first last : Token}
    (h : window ∈ windows count tokens) (hfirst : window[0]? = some first)
    (hlast : window[count - 1]? = some last) : Spans tokens first last := by
  obtain ⟨i, hi, rfl⟩ := windows_mem h
  have hzero := (List.getElem?_eq_some_iff.mp hfirst).1
  have hend := (List.getElem?_eq_some_iff.mp hlast).1
  rw [List.getElem?_take_of_lt (by simp at hzero; omega), List.getElem?_drop] at hfirst
  rw [List.getElem?_take_of_lt (by simp at hend; omega), List.getElem?_drop] at hlast
  exact ⟨i + 0, i + (count - 1), by omega, hfirst, hlast⟩

end Steps

section Recognisers

variable (parseDate : String → Option NaiveDate) (referenceInstant : ℤ) {today : NaiveDate}
  {maxRangeDays : ℤ} {tokens : List Token}

/-- The longest period the limit allows still begins within the calendar's range. -/
def LongestRepresentable (today : NaiveDate) (maxRangeDays : ℤ) : Prop :=
  0 < maxRangeDays → (today.addDays (-(maxRangeDays - 1))).IsRepresentable

theorem monthExpr_stop {index month stop : ℕ} {year : Option ℤ}
    (h : monthExpr tokens index = some (month, year, stop)) :
    index < stop ∧ stop ≤ tokens.length := by
  simp only [monthExpr, Option.bind_eq_bind, Option.bind_eq_some_iff, Option.pure_def,
    Option.some.injEq, Prod.mk.injEq] at h
  obtain ⟨first, hfirst, number, -, -, hyear, rfl⟩ := h
  have hindex := (List.getElem?_eq_some_iff.mp hfirst).1
  split_ifs with hsome
  · have hnext : index + 1 < tokens.length := by
      by_contra hlast
      rw [List.getElem?_eq_none (by omega)] at hsome
      cases hsome
    omega
  · omega

theorem monthRangeAt_sound {start : ℕ} (h : start < tokens.length) :
    Sound tokens maxRangeDays (monthRangeAt referenceInstant today maxRangeDays tokens start) := by
  unfold monthRangeAt
  apply expect_sound (List.getElem?_eq_getElem h)
  split_ifs with hlead
  · trivial
  · split
    · trivial
    · rename_i fromMonth fromYear afterFrom hfrom
      split_ifs with hlink
      · trivial
      · split
        · trivial
        · rename_i toMonth toYear stop hto
          have hafter := monthExpr_stop hfrom
          have hstop := monthExpr_stop hto
          have hlast : stop - 1 < tokens.length := by omega
          dsimp only
          split
          · apply expect_sound (List.getElem?_eq_getElem hlast)
            apply finish_sound
            exact ⟨start, stop - 1, by omega, List.getElem?_eq_getElem h,
              List.getElem?_eq_getElem hlast⟩
          · exact invalid_sound _ _

/-- The two dates of an explicit range are within the limit, or an error. -/
theorem explicitDates_sound {first last : Token} (h : Spans tokens first last)
    (fromText toText : String) :
    Sound tokens maxRangeDays (withDate parseDate fromText fun fromDate =>
      withDate parseDate toText fun toDate =>
        finish referenceInstant maxRangeDays fromDate toDate "inclusive_explicit_range"
          (first.start, last.stop)) := by
  apply withDate_sound
  intro fromDate
  apply withDate_sound
  intro toDate
  exact finish_sound h referenceInstant fromDate toDate _

theorem explicitRange_sound {window : List Token} (h : window ∈ windows 4 tokens) :
    Sound tokens maxRangeDays (explicitRange parseDate referenceInstant maxRangeDays window) := by
  unfold explicitRange
  split
  · split_ifs with hwords
    · exact explicitDates_sound parseDate referenceInstant (windows_spans h rfl rfl) _ _
    · trivial
  · trivial

theorem bareRange_sound {window : List Token} (h : window ∈ windows 3 tokens) :
    Sound tokens maxRangeDays (bareRange parseDate referenceInstant maxRangeDays window) := by
  unfold bareRange
  split
  · split_ifs with hwords
    · exact explicitDates_sound parseDate referenceInstant (windows_spans h rfl rfl) _ _
    · trivial
  · trivial

/-- Every rule names a unit or the unit before. -/
theorem relativeRange_isSome (h : NeighboursRepresentable today) (rule : RelativeRule) :
    ∃ range, relativeRange today rule = some range := by
  have hunit : ∀ unit : CalendarUnit,
      (∃ range, relativeRange today unit.thisRule = some range) ∧
        ∃ range, relativeRange today unit.lastRule = some range := by
    intro unit
    obtain ⟨this, last, hthis, hlast, -⟩ := unit_ranges unit h
    exact ⟨⟨this, hthis⟩, ⟨last, hlast⟩⟩
  cases rule with
  | today => exact (hunit .day).1
  | yesterday => exact (hunit .day).2
  | thisWeek => exact (hunit .week).1
  | lastWeek => exact (hunit .week).2
  | thisMonth => exact (hunit .month).1
  | lastMonth => exact (hunit .month).2
  | thisQuarter => exact (hunit .quarter).1
  | lastQuarter => exact (hunit .quarter).2
  | thisYear => exact (hunit .year).1
  | lastYear => exact (hunit .year).2

theorem relativePhrase_sound (h : NeighboursRepresentable today)
    {phrase : List String × RelativeRule} (hphrase : phrase.1 ≠ []) :
    Sound tokens maxRangeDays
      (relativePhrase referenceInstant today maxRangeDays tokens phrase) := by
  unfold relativePhrase
  split
  · trivial
  · rename_i window hfind
    have hmem := List.mem_of_find?_eq_some hfind
    have hwords : window.map (·.text) = phrase.1 := by
      simpa using List.find?_some hfind
    have hlength : window.length = phrase.1.length := by
      rw [← hwords, List.length_map]
    have hne : 0 < window.length := by
      rw [hlength]
      exact List.length_pos_of_ne_nil hphrase
    obtain ⟨range, hrange⟩ := relativeRange_isSome h phrase.2
    have hhead : window.head? = some window[0] := by
      rw [List.head?_eq_getElem?, List.getElem?_eq_getElem hne]
    have hlast : window.getLast? = some window[window.length - 1] := by
      rw [List.getLast?_eq_getElem?, List.getElem?_eq_getElem]
    apply expect_sound hrange
    apply expect_sound hhead
    apply expect_sound hlast
    apply finish_sound
    apply windows_spans hmem
    · exact List.getElem?_eq_getElem hne
    · rw [← hlength]
      exact List.getElem?_eq_getElem _

theorem lastDays_sound (h : NeighboursRepresentable today)
    (hlongest : LongestRepresentable today maxRangeDays) {window : List Token}
    (hwindow : window ∈ windows 3 tokens) :
    Sound tokens maxRangeDays (lastDays referenceInstant today maxRangeDays window) := by
  unfold lastDays
  split
  · rename_i first second third
    dsimp only
    split_ifs with hphrase
    · trivial
    all_goals
      split
      · exact invalid_sound _ _
      · rename_i days hdays
        split_ifs with hcount
        · exact invalid_sound _ _
        · have hrange : (today.addDays (-(days - 1))).IsRepresentable := by
            apply NaiveDate.IsRepresentable.between (hlongest (by omega)) h.representable
            · rw [NaiveDate.dayNumber_addDays, NaiveDate.dayNumber_addDays]
              omega
            · rw [NaiveDate.dayNumber_addDays]
              omega
          apply expect_sound (NaiveDate.checkedAddDays_eq hrange)
          apply finish_sound
          exact windows_spans hwindow rfl rfl
  · trivial

theorem singleDate_sound :
    Sound tokens maxRangeDays (singleDate parseDate referenceInstant maxRangeDays tokens) := by
  unfold singleDate
  split
  · trivial
  · rename_i token hfilter
    split_ifs with hlead
    · exact invalid_sound _ _
    · apply withDate_sound
      intro date
      apply finish_sound
      have hmem : token ∈ tokens := by
        have hsingle : token ∈ tokens.filter fun token => looksLikeIsoDate token.text := by
          rw [hfilter]
          exact List.mem_cons_self
        exact List.mem_of_mem_filter hsingle
      obtain ⟨i, hi, htoken⟩ := List.getElem_of_mem hmem
      exact ⟨i, i, le_rfl, htoken ▸ List.getElem?_eq_getElem hi,
        htoken ▸ List.getElem?_eq_getElem hi⟩
  · exact invalid_sound _ _

theorem recognisers_sound (h : NeighboursRepresentable today)
    (hlongest : LongestRepresentable today maxRangeDays) :
    ∀ flow ∈ recognisers parseDate referenceInstant today maxRangeDays tokens,
      Sound tokens maxRangeDays flow := by
  intro flow hflow
  simp only [recognisers, List.mem_append, List.mem_map, List.mem_range, List.mem_cons,
    List.not_mem_nil, or_false] at hflow
  rcases hflow with ((((⟨start, hstart, rfl⟩ | ⟨window, hwindow, rfl⟩) | ⟨window, hwindow, rfl⟩) |
    ⟨phrase, hphrase, rfl⟩) | ⟨window, hwindow, rfl⟩) | rfl | rfl | rfl
  · exact monthRangeAt_sound referenceInstant hstart
  · exact explicitRange_sound parseDate referenceInstant hwindow
  · exact bareRange_sound parseDate referenceInstant hwindow
  · apply relativePhrase_sound referenceInstant h
    have hwords : ∀ phrase ∈ RELATIVE, phrase.1 ≠ [] := by decide
    exact hwords phrase hphrase
  · exact lastDays_sound referenceInstant h hlongest hwindow
  · exact singleDate_sound parseDate referenceInstant
  · unfold malformedDate
    split_ifs
    · exact invalid_sound _ _
    · trivial
  · unfold vagueExpression
    split_ifs
    · exact invalid_sound _ _
    · trivial

/-- Reading the tokens ends without a panic in a sound outcome. -/
theorem resolveTokens_sound (tokens : List Token) (h : NeighboursRepresentable today)
    (hlongest : LongestRepresentable today maxRangeDays) :
    ∃ outcome, resolveTokens parseDate referenceInstant today maxRangeDays tokens = some outcome ∧
      Sound tokens maxRangeDays (.done outcome) := by
  have hsound := firstOf_sound
    (@recognisers_sound parseDate referenceInstant today maxRangeDays tokens h hlongest)
  unfold resolveTokens
  cases hflow : firstOf (recognisers parseDate referenceInstant today maxRangeDays tokens) with
  | next =>
    refine ⟨.ok none, rfl, ?_⟩
    intro resolved hresolved
    cases hresolved
  | panic =>
    rw [hflow] at hsound
    exact hsound.elim
  | done outcome =>
    rw [hflow] at hsound
    exact ⟨outcome, rfl, hsound⟩

end Recognisers

section Messages

variable {message : String}

/-- Tokens of the lowercased message stand where those of the message do. -/
theorem spans_message {first last : Token}
    (h : Spans (tokensWithSpans (Text.asciiLower message)) first last) :
    ∃ opening closing, IsTokenOf message.toList opening ∧ IsTokenOf message.toList closing ∧
      opening.start = first.start ∧ closing.stop = last.stop ∧
      first.start < last.stop ∧ last.stop ≤ byteLength message.toList := by
  obtain ⟨i, j, hle, hfirst, hlast⟩ := h
  rw [tokensWithSpans_asciiLower, List.getElem?_map, Option.map_eq_some_iff] at hfirst hlast
  obtain ⟨opening, hopening, rfl⟩ := hfirst
  obtain ⟨closing, hclosing, rfl⟩ := hlast
  have hstart := tokensWithSpans_isTokenOf (List.mem_of_getElem? hopening)
  have hstop := tokensWithSpans_isTokenOf (List.mem_of_getElem? hclosing)
  refine ⟨opening, closing, hstart, hstop, rfl, rfl, ?_, hstop.stop_le⟩
  rcases hle.lt_or_eq with hlt | rfl
  · have hbefore := List.pairwise_iff_getElem.mp (tokensWithSpans_pairwise message) i j
      (List.getElem?_eq_some_iff.mp hopening).1 (List.getElem?_eq_some_iff.mp hclosing).1 hlt
    rw [(List.getElem?_eq_some_iff.mp hopening).2, (List.getElem?_eq_some_iff.mp hclosing).2]
      at hbefore
    have hopen := hstart.start_lt_stop
    have hclose := hstop.start_lt_stop
    dsimp only
    omega
  · have hsame : opening = closing := Option.some.inj (hopening.symm.trans hclosing)
    rw [hsame]
    exact hstop.start_lt_stop

/-- A period in order and within the limit, whose phrase runs from the start of a token to the
end of one. -/
structure WellFormed (message : String) (maxRangeDays : ℤ) (resolved : ResolvedTemporal) :
    Prop where
  ordered : ¬ resolved.toDate.before resolved.fromDate
  nonempty : 1 ≤ inclusiveDays resolved
  bounded : inclusiveDays resolved ≤ maxRangeDays
  phrase : ∃ opening closing, IsTokenOf message.toList opening ∧
    IsTokenOf message.toList closing ∧
    resolved.provenance.phraseSpan = (opening.start, closing.stop) ∧
    opening.start < closing.stop ∧ closing.stop ≤ byteLength message.toList

/-- Every message is answered without a panic, and every period that is returned is well
formed. -/
theorem resolveTemporal_wellFormed (parseDate : String → Option NaiveDate) (referenceInstant : ℤ)
    (today : NaiveDate) (maxRangeDays : ℤ) (message : String) (h : NeighboursRepresentable today)
    (hlongest : LongestRepresentable today maxRangeDays) :
    ∃ outcome, resolveTemporal parseDate referenceInstant today maxRangeDays message =
        some outcome ∧
      ∀ resolved, outcome = .ok (some resolved) → WellFormed message maxRangeDays resolved := by
  obtain ⟨outcome, houtcome, hsound⟩ := resolveTokens_sound parseDate referenceInstant
    (tokensWithSpans (Text.asciiLower message)) h hlongest
  refine ⟨outcome, houtcome, ?_⟩
  intro resolved hresolved
  obtain ⟨hordered, hbounded, first, last, hspans, hphrase⟩ := hsound resolved hresolved
  obtain ⟨opening, closing, hopening, hclosing, hstart, hstop, hlt, hle⟩ := spans_message hspans
  have hdays := not_before_iff.mp hordered
  refine ⟨hordered, ?_, hbounded, opening, closing, hopening, hclosing, ?_, ?_, ?_⟩
  · unfold inclusiveDays
    omega
  · rw [hphrase, hstart, hstop]
  · omega
  · omega

theorem reportDay_valid : 1 ≤ 7 ∧ 7 ≤ 12 ∧ 1 ≤ 24 ∧ 24 ≤ daysInMonth 2026 7 := by decide

def reportDay : NaiveDate := ⟨2026, 7, 24, reportDay_valid⟩

instance (today : NaiveDate) (maxRangeDays : ℤ) : Decidable
    (LongestRepresentable today maxRangeDays) := by
  unfold LongestRepresentable
  infer_instance

theorem resolveTemporal_wellFormed_lastDays :
    ∃ outcome, resolveTemporal (fun _ => none) 0 reportDay 31 "last 30 days" = some outcome ∧
      ∀ resolved, outcome = .ok (some resolved) → WellFormed "last 30 days" 31 resolved :=
  resolveTemporal_wellFormed (fun _ => none) 0 reportDay 31 "last 30 days" (by decide)
    (by decide +kernel)

example : resolveTemporal (fun _ => none) 0 reportDay 31 "Deposits, last 30 days?" =
    some (.ok (some ⟨⟨2026, 6, 25, by decide⟩, reportDay,
      ⟨"last_n_days_inclusive", (10, 22), 0, "Asia/Jakarta"⟩⟩)) := by
  decide +kernel

end Messages

end FineractReports.Extraction
