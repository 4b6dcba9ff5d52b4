import FineractReports.Knowledge.DatasetCompose
import FineractReports.Knowledge.DatasetExpr
import FineractReports.Knowledge.StatementSafety

/-!
# Predicates of a composed statement

What a predicate is made of: plain texts, placeholders and the expression of its filter.
Only the expression can bring in a command; the placeholders are the ones the predicate
takes.
-/

namespace FineractReports.Dataset

open SqlSafety

/-! ### Segments -/

/-- The texts of a predicate that its filter does not supply. -/
def PLAIN_TEXTS : List String :=
  ["::date", "::bigint", "::bool", "::text", "::numeric", "\n    AND (", "\n  AND (",
    " IS NULL OR lower", ") = lower(", "))", "[] IS NULL OR", " = ANY(", "[]))", " IS NULL OR",
    " IS NULL OR ", " BETWEEN ", " AND ", ")", " = ", " < ", " <= ", " > ", " >= "]

/-- What a predicate is made of; each segment begins with a character of its own. -/
inductive Segment where
  | plain (text : String)
  | value (index : ℕ)
  | column (opening : Char) (expr : String)

namespace Segment

def chars : Segment → List Char
  | plain text => text.toList
  | value index => '$' :: (toString index).toList
  | column opening expr => opening :: expr.toList

def Authored : Segment → Prop
  | plain text => text ∈ PLAIN_TEXTS
  | value _ => True
  | column opening _ => opening = ' ' ∨ opening = '('

end Segment

def predicateSegments (expr : String) (operator : FilterOperator) (caseInsensitive : Bool)
    (cast : String) (index : ℕ) : List Segment :=
  if caseInsensitive then
    [.plain "\n    AND (", .value index, .plain cast, .plain " IS NULL OR lower",
      .column '(' expr, .plain ") = lower(", .value index, .plain cast, .plain "))"]
  else match operator with
    | .in => [.plain "\n  AND (", .value index, .plain cast, .plain "[] IS NULL OR",
        .column ' ' expr, .plain " = ANY(", .value index, .plain cast, .plain "[]))"]
    | .between => [.plain "\n  AND (", .value index, .plain cast, .plain " IS NULL OR ",
        .value (index + 1), .plain cast, .plain " IS NULL OR", .column ' ' expr,
        .plain " BETWEEN ", .value index, .plain " AND ", .value (index + 1), .plain ")"]
    | operator => [.plain "\n  AND (", .value index, .plain cast, .plain " IS NULL OR",
        .column ' ' expr, .plain (" " ++ operator.asSql ++ " "), .value index, .plain ")"]

theorem filterCast_plain {kind cast : String} (h : filterCast kind = some cast) :
    cast ∈ PLAIN_TEXTS := by
  have hmem := Assoc.mem_of_get?_eq_some h
  simp only [List.mem_cons, Prod.mk.injEq, List.not_mem_nil, or_false] at hmem
  rcases hmem with h | h | h | h | h <;>
  · rw [h.2]
    decide

theorem predicate_segments {expr kind text : String} {operator : FilterOperator}
    {caseInsensitive : Bool} {index : ℕ}
    (h : predicate expr operator kind caseInsensitive index = .ok text) :
    ∃ cast ∈ PLAIN_TEXTS, text.toList =
      (predicateSegments expr operator caseInsensitive cast index).flatMap Segment.chars := by
  simp only [predicate, bind_eq_ok_iff, okOr_eq_ok] at h
  obtain ⟨cast, hcast, h⟩ := h
  refine ⟨cast, filterCast_plain hcast, ?_⟩
  cases caseInsensitive with
  | true =>
    simp only [if_true] at h
    split_ifs at h
    obtain rfl := Except.ok.inj h
    simp [predicateSegments, Segment.chars, placeholder]
  | false =>
    simp only [Bool.false_eq_true, if_false] at h
    cases operator <;> obtain rfl := Except.ok.inj h <;>
      simp [predicateSegments, Segment.chars, placeholder]

theorem predicateSegments_authored {expr cast : String} {operator : FilterOperator}
    {caseInsensitive : Bool} {index : ℕ} (hcast : cast ∈ PLAIN_TEXTS) :
    ∀ segment ∈ predicateSegments expr operator caseInsensitive cast index, segment.Authored := by
  unfold predicateSegments
  intro segment hsegment
  cases caseInsensitive with
  | true =>
    rw [if_pos rfl] at hsegment
    fin_cases hsegment <;> first | exact hcast | simp [Segment.Authored, PLAIN_TEXTS]
  | false =>
    rw [if_neg (by decide)] at hsegment
    cases operator <;> fin_cases hsegment <;> first | exact hcast |
      simp [Segment.Authored, PLAIN_TEXTS, FilterOperator.asSql]

theorem plainTexts_begin : ∀ text ∈ PLAIN_TEXTS,
    text.toList.head?.any (fun c => !isTokenChar c && c.toUpper == c) = true := by
  decide +kernel

theorem plainTexts_commands : ∀ text ∈ PLAIN_TEXTS, NoUnsafeCommand text := by
  decide +kernel

theorem plainTexts_marks : ∀ text ∈ PLAIN_TEXTS, '$' ∉ text.toList ∧ ';' ∉ text.toList := by
  decide +kernel

/-- Every command has a letter. -/
theorem command_letter : ∀ command ∈ UNSAFE_SQL_COMMANDS,
    command.toList.any Char.isUpper = true := by
  decide +kernel

namespace Segment

variable {segment : Segment}

theorem chars_begin (h : segment.Authored) : ∃ c rest, segment.chars = c :: rest ∧
    isTokenChar c = false ∧ c.toUpper = c := by
  cases segment with
  | plain text =>
    obtain ⟨c, hc, hfacts⟩ := (Option.any_eq_true ..).mp (plainTexts_begin text h)
    obtain ⟨rest, hrest⟩ := List.head?_eq_some_iff.mp hc
    rw [Bool.and_eq_true, Bool.not_eq_true', beq_iff_eq] at hfacts
    exact ⟨c, rest, hrest, hfacts⟩
  | value index => exact ⟨'$', _, rfl, by decide, by decide⟩
  | column opening expr =>
    refine ⟨opening, _, rfl, ?_⟩
    rcases h with rfl | rfl <;> decide

theorem beginsIn_separator (h : segment.Authored) :
    Text.BeginsIn (fun c => !isTokenChar c) (segment.chars.map Char.toUpper) := by
  obtain ⟨c, rest, hchars, hc, hupper⟩ := chars_begin h
  rw [hchars, List.map_cons, hupper]
  exact Text.beginsIn_cons.mpr (by simp [hc])

theorem beginsIn_nonDigit (h : segment.Authored) :
    Text.BeginsIn (fun c => !c.isDigit) segment.chars := by
  obtain ⟨c, rest, hchars, hc, -⟩ := chars_begin h
  rw [hchars]
  simp only [isTokenChar, Char.isAlphanum, Bool.or_eq_false_iff] at hc
  exact Text.beginsIn_cons.mpr (by simp [hc])

/-- Only the expression of the filter can bring in a command. -/
theorem command_mem (h : segment.Authored) {command : String}
    (hcommand : command ∈ UNSAFE_SQL_COMMANDS) :
    command.toList ∈ sqlTokens (segment.chars.map Char.toUpper) ↔
      ∃ opening expr, segment = column opening expr ∧
        command.toList ∈ sqlTokens (expr.toList.map Char.toUpper) := by
  cases segment with
  | plain text =>
    have hnone := plainTexts_commands text h command hcommand
    rw [sqlTokens_upperSql] at hnone
    simp [chars, hnone]
  | value index =>
    have hnone : command.toList ∉ sqlTokens ((value index).chars.map Char.toUpper) := by
      intro hmem
      obtain ⟨c, hc, hletter⟩ := List.any_eq_true.mp (command_letter command hcommand)
      obtain ⟨d, hd, rfl⟩ := List.mem_map.mp (Text.mem_of_mem_tokenChars hmem hc)
      obtain rfl | hdigit := List.mem_cons.mp hd
      · exact absurd hletter (by decide)
      · have hrepr := Text.repr_isDigit hdigit
        rw [Text.toUpper_of_isDigit hrepr] at hletter
        have hdisjoint : d.isUpper = true → d.isDigit = true → False := by
          simp only [Text.isUpper_eq, Char.isDigit]
          grind
        exact hdisjoint hletter hrepr
    simp [hnone]
  | column opening expr =>
    have hopening : (!isTokenChar opening.toUpper) = true := by
      rcases h with rfl | rfl <;> decide
    have htokens : sqlTokens ((column opening expr).chars.map Char.toUpper) =
        sqlTokens (expr.toList.map Char.toUpper) := by
      unfold sqlTokens chars
      rw [List.map_cons, Text.tokenChars_cons _ hopening]
    rw [htokens]
    constructor
    · exact fun hmem => ⟨opening, expr, rfl, hmem⟩
    · rintro ⟨_, _, hsame, hmem⟩
      cases hsame
      exact hmem

/-- The numbers a segment names. -/
def numbers : Segment → List ℕ
  | value index => [index]
  | _ => []

theorem numbersAfter_chars (h : segment.Authored)
    (hexpr : ∀ opening expr, segment = column opening expr → '$' ∉ expr.toList) :
    Text.numbersAfter '$' segment.chars = segment.numbers := by
  cases segment with
  | plain text => exact Text.numbersAfter_eq_nil (plainTexts_marks text h).1
  | value index => exact Text.numbersAfter_repr '$' index (by decide)
  | column opening expr =>
    have hopening : opening ≠ '$' := by
      rcases h with rfl | rfl <;> decide
    rw [chars, Text.numbersAfter_cons _ hopening]
    exact Text.numbersAfter_eq_nil (hexpr opening expr rfl)

theorem semicolon_not_mem (h : segment.Authored)
    (hexpr : ∀ opening expr, segment = column opening expr → ';' ∉ expr.toList) :
    ';' ∉ segment.chars := by
  cases segment with
  | plain text => exact (plainTexts_marks text h).2
  | value index =>
    intro hmem
    obtain hdollar | hdigit := List.mem_cons.mp hmem
    · exact absurd hdollar (by decide)
    · exact absurd (Text.repr_isDigit hdigit) (by decide)
  | column opening expr =>
    intro hmem
    obtain hopening | hin := List.mem_cons.mp hmem
    · rcases h with rfl | rfl <;> exact absurd hopening (by decide)
    · exact hexpr opening expr rfl hin

end Segment

/-! ### The predicates of the filters -/

/-- A text of predicates over the expressions, with the placeholders after `taken` up to
`last`. -/
def PredicateText (exprs : List String) (taken last : ℕ) (text : List Char) : Prop :=
  ∃ segments : List Segment, text = segments.flatMap Segment.chars ∧
    (∀ segment ∈ segments, segment.Authored) ∧
    (∀ expr, (∃ opening, .column opening expr ∈ segments) ↔ expr ∈ exprs) ∧
    (∀ index, .value index ∈ segments ↔ taken < index ∧ index ≤ last) ∧
    Text.BeginsIn (fun c => c = '\n') text

theorem predicate_caseInsensitive {expr kind text : String} {operator : FilterOperator} {index : ℕ}
    (h : predicate expr operator kind true index = .ok text) : operator = .eq := by
  simp only [predicate, bind_eq_ok_iff, if_true] at h
  obtain ⟨cast, -, h⟩ := h
  split_ifs at h with hrefused
  exact not_not.mp fun hne => hrefused (Or.inr hne)

namespace PredicateText

theorem empty (taken : ℕ) : PredicateText [] taken taken [] := by
  refine ⟨[], rfl, ?_, ?_, ?_, Text.beginsIn_nil⟩
  · simp
  · simp
  · intro index
    simp only [List.not_mem_nil, false_iff]
    omega

theorem append {exprs others : List String} {taken middle last : ℕ} {text more : List Char}
    (htext : PredicateText exprs taken middle text) (hmore : PredicateText others middle last more)
    (hmiddle : taken ≤ middle) (hlast : middle ≤ last) :
    PredicateText (exprs ++ others) taken last (text ++ more) := by
  obtain ⟨segments, rfl, hauthored, hexprs, hvalues, hbegin⟩ := htext
  obtain ⟨rest, rfl, hauthored', hothers, hvalues', hbegin'⟩ := hmore
  refine ⟨segments ++ rest, ?_, ?_, ?_, ?_, Text.beginsIn_append hbegin hbegin'⟩
  · rw [List.flatMap_append]
  · intro segment hsegment
    exact (List.mem_append.mp hsegment).elim (hauthored segment) (hauthored' segment)
  · intro expr
    rw [List.mem_append, ← hexprs, ← hothers, ← exists_or]
    simp only [List.mem_append]
  · intro index
    rw [List.mem_append, hvalues, hvalues']
    omega

theorem of_predicate {expr kind text : String} {operator : FilterOperator}
    {caseInsensitive : Bool} {taken : ℕ}
    (h : predicate expr operator kind caseInsensitive (taken + 1) = .ok text) :
    PredicateText [expr] taken (taken + operator.placeholders) text.toList := by
  obtain ⟨cast, hcast, htext⟩ := predicate_segments h
  refine ⟨_, htext, predicateSegments_authored hcast, ?_, ?_, ?_⟩
  · intro other
    unfold predicateSegments
    cases caseInsensitive <;> cases operator <;> simp [eq_comm]
  · intro index
    unfold predicateSegments
    cases caseInsensitive with
    | true =>
      obtain rfl := predicate_caseInsensitive h
      simp only [FilterOperator.placeholders, if_true, List.mem_cons, Segment.value.injEq,
        reduceCtorEq, List.not_mem_nil, or_false, false_or]
      omega
    | false => cases operator <;> simp [FilterOperator.placeholders] <;> omega
  · rw [htext]
    unfold predicateSegments
    cases caseInsensitive <;> cases operator <;> simp [Segment.chars, Text.BeginsIn]

section Lemmas

variable {exprs : List String} {taken last : ℕ} {text : List Char}

theorem beginsIn_separator (h : PredicateText exprs taken last text) :
    Text.BeginsIn (fun c => !isTokenChar c) (text.map Char.toUpper) := by
  obtain ⟨-, -, -, -, -, hbegin⟩ := h
  cases text with
  | nil => exact Text.beginsIn_nil
  | cons c rest =>
    obtain rfl : c = '\n' := by simpa using Text.beginsIn_cons.mp hbegin
    exact Text.beginsIn_cons.mpr (by decide)

/-- Only an expression can bring in a command. -/
theorem command_mem (h : PredicateText exprs taken last text) {command : String}
    (hcommand : command ∈ UNSAFE_SQL_COMMANDS) :
    command.toList ∈ sqlTokens (text.map Char.toUpper) ↔
      ∃ expr ∈ exprs, command.toList ∈ sqlTokens (expr.toList.map Char.toUpper) := by
  obtain ⟨segments, rfl, hauthored, hexprs, -, -⟩ := h
  rw [List.map_flatMap, Text.scan_flatMap sqlTokens rfl
    (fun before after hafter => Text.tokenChars_append hafter)
    fun segment hsegment => Segment.beginsIn_separator (hauthored segment hsegment),
    List.mem_flatMap]
  constructor
  · rintro ⟨segment, hsegment, hmem⟩
    obtain ⟨opening, expr, rfl, hexpr⟩ :=
      (Segment.command_mem (hauthored segment hsegment) hcommand).mp hmem
    exact ⟨expr, (hexprs expr).mp ⟨opening, hsegment⟩, hexpr⟩
  · rintro ⟨expr, hexpr, hmem⟩
    obtain ⟨opening, hsegment⟩ := (hexprs expr).mpr hexpr
    exact ⟨_, hsegment, (Segment.command_mem (hauthored _ hsegment) hcommand).mpr
      ⟨opening, expr, rfl, hmem⟩⟩

/-- The placeholders are the ones taken. -/
theorem mem_numbersAfter (h : PredicateText exprs taken last text)
    (hexprs : ∀ expr ∈ exprs, '$' ∉ expr.toList) {index : ℕ} :
    index ∈ Text.numbersAfter '$' text ↔ taken < index ∧ index ≤ last := by
  obtain ⟨segments, rfl, hauthored, hcolumns, hvalues, -⟩ := h
  have hnumbers : ∀ segment ∈ segments,
      Text.numbersAfter '$' segment.chars = segment.numbers := by
    intro segment hsegment
    apply Segment.numbersAfter_chars (hauthored segment hsegment)
    rintro opening expr rfl
    exact hexprs expr ((hcolumns expr).mp ⟨opening, hsegment⟩)
  rw [Text.scan_flatMap (Text.numbersAfter '$') rfl
    (fun before after hafter => Text.numbersAfter_append hafter)
    fun segment hsegment => Segment.beginsIn_nonDigit (hauthored segment hsegment),
    List.mem_flatMap, ← hvalues]
  constructor
  · rintro ⟨segment, hsegment, hmem⟩
    rw [hnumbers segment hsegment] at hmem
    cases segment with
    | value other =>
      obtain rfl := List.mem_singleton.mp hmem
      exact hsegment
    | plain text => cases hmem
    | column opening expr => cases hmem
  · intro hsegment
    refine ⟨_, hsegment, ?_⟩
    rw [hnumbers _ hsegment]
    exact List.mem_singleton_self _

theorem semicolon_not_mem (h : PredicateText exprs taken last text)
    (hexprs : ∀ expr ∈ exprs, ';' ∉ expr.toList) : ';' ∉ text := by
  obtain ⟨segments, rfl, hauthored, hcolumns, -, -⟩ := h
  intro hmem
  obtain ⟨segment, hsegment, hin⟩ := List.mem_flatMap.mp hmem
  refine Segment.semicolon_not_mem (hauthored segment hsegment) ?_ hin
  rintro opening expr rfl
  exact hexprs expr ((hcolumns expr).mp ⟨opening, hsegment⟩)

end Lemmas

end PredicateText

section Filters

variable {dataset : DatasetKnowledge} {shape : ShapeOption} {taken last : ℕ} {text : String}
  {binds : List FilterBind}

/-- The expressions of the predicates, once for every operator. -/
def predicateExprs (filters : List FilterSlot) : List String :=
  filters.flatMap fun filter => filter.operators.map fun _ => filter.expr

theorem composeOperators_text {filter : FilterSlot} {operators : List FilterOperator}
    (h : composeOperators shape filter taken operators = .ok (last, text, binds)) :
    taken ≤ last ∧
      PredicateText (operators.map fun _ => filter.expr) taken last text.toList := by
  induction operators generalizing taken last text binds with
  | nil =>
    cases h
    exact ⟨le_rfl, PredicateText.empty taken⟩
  | cons operator rest ih =>
    simp only [composeOperators, bind_eq_ok_iff, pure_eq_ok, Prod.exists, Prod.mk.injEq] at h
    obtain ⟨first, hfirst, middle, texts, others, hrest, rfl, rfl, -⟩ := h
    obtain ⟨hle, hmore⟩ := ih hrest
    have htaken : taken ≤ taken + operator.placeholders := Nat.le_add_right _ _
    refine ⟨htaken.trans hle, ?_⟩
    rw [String.toList_append, List.map_cons]
    exact (PredicateText.of_predicate hfirst).append hmore htaken hle

theorem composeFilters_text {filters : List FilterSlot}
    (h : composeFilters dataset shape taken filters = .ok (last, text, binds)) :
    taken ≤ last ∧ PredicateText (predicateExprs filters) taken last text.toList ∧
      ∀ filter ∈ filters, validateSqlExpr filter.expr = .ok () := by
  induction filters generalizing taken last text binds with
  | nil =>
    cases h
    exact ⟨le_rfl, PredicateText.empty taken, by simp⟩
  | cons filter rest ih =>
    simp only [composeFilters, bind_eq_ok_iff, exists_unit_iff, mapError_eq_ok, pure_eq_ok,
      Prod.exists, Prod.mk.injEq] at h
    obtain ⟨hexpr, middle, first, some, hfirst, final, texts, others, hrest, rfl, rfl, -⟩ := h
    obtain ⟨hmiddle, htext⟩ := composeOperators_text hfirst
    obtain ⟨hlast, hmore, hall⟩ := ih hrest
    refine ⟨hmiddle.trans hlast, ?_, List.forall_mem_cons.mpr ⟨hexpr, hall⟩⟩
    rw [String.toList_append]
    exact htext.append hmore hmiddle hlast

end Filters

end FineractReports.Dataset
