import FineractReports.Knowledge.DatasetPredicates

/-!
# The text of a composed statement

Every authored text of a composed statement starts a line of its own, so that a check on
the statement is a check on its texts: the source, the fragment and the expressions of the
filters and of the ordering.
-/

namespace FineractReports.Dataset

open SqlSafety

/-- The ordering clause over the selected expression, if there is one. -/
def OrderText (exprs : List String) (text : String) : Prop :=
  (exprs = [] ∧ text = "") ∨
    ∃ expr, exprs = [expr] ∧ validateSqlExpr expr = .ok () ∧ text = "\nORDER BY " ++ expr

/-- The expression of the selected ordering. -/
def orderByExprs (dataset : DatasetKnowledge) (orderById : Option String) : List String :=
  (orderById.bind dataset.orderByExpr).toList

theorem orderByClause_text {dataset : DatasetKnowledge} {orderById : Option String} {text : String}
    (h : orderByClause dataset orderById = .ok text) :
    OrderText (orderByExprs dataset orderById) text := by
  cases orderById with
  | none =>
    cases h
    exact Or.inl ⟨rfl, rfl⟩
  | some id =>
    simp only [orderByClause, bind_eq_ok_iff, exists_unit_iff, okOr_eq_ok, mapError_eq_ok,
      pure_eq_ok] at h
    obtain ⟨expr, hexpr, hvalid, rfl⟩ := h
    exact Or.inr ⟨expr, by simp [orderByExprs, hexpr], hvalid, rfl⟩

/-- The constant texts around the authored ones. -/
def COMPOSED_OPENING : String := "WITH source AS ("

def COMPOSED_BASE : String := "\n),\nbase AS (\n  SELECT *\n  FROM source\n  WHERE TRUE"

def COMPOSED_CLOSING : String := "\n)"

/-- The texts after the opening; each one is empty or starts a line. -/
def composedPieces (source predicates fragment orderBy : String) : List (List Char) :=
  ['\n' :: source.toList, COMPOSED_BASE.toList, predicates.toList, COMPOSED_CLOSING.toList,
    '\n' :: fragment.toList, orderBy.toList]

section Composed

variable {source predicates fragment orderBy : String} {exprs orderExprs : List String}
  {taken last : ℕ}

theorem composedText_pieces : (composedText source predicates fragment orderBy).toList =
    COMPOSED_OPENING.toList ++ (composedPieces source predicates fragment orderBy).flatten := by
  have hopening : "WITH source AS (\n".toList = COMPOSED_OPENING.toList ++ ['\n'] := by decide
  have hclosing : "\n)\n".toList = COMPOSED_CLOSING.toList ++ ['\n'] := by decide
  unfold composedText composedPieces COMPOSED_BASE
  simp only [String.toList_append, hopening, hclosing, List.flatten_cons, List.flatten_nil,
    List.append_assoc, List.cons_append, List.nil_append, List.append_nil]

theorem OrderText.begins (h : OrderText orderExprs orderBy) :
    Text.BeginsIn (fun c => c = '\n') orderBy.toList := by
  obtain ⟨-, rfl⟩ | ⟨expr, -, -, rfl⟩ := h
  · exact Text.beginsIn_nil
  · rw [String.toList_append]
    exact Text.beginsIn_cons.mpr (by decide)

theorem composedPieces_begin (hpredicates : PredicateText exprs taken last predicates.toList)
    (horder : OrderText orderExprs orderBy) :
    ∀ piece ∈ composedPieces source predicates fragment orderBy,
      Text.BeginsIn (fun c => c = '\n') piece := by
  obtain ⟨-, -, -, -, -, hbegin⟩ := hpredicates
  simp only [composedPieces, List.forall_mem_cons, Text.beginsIn_cons]
  refine ⟨by simp, ?_, hbegin, ?_, by simp, horder.begins, by simp⟩
  · exact Text.beginsIn_cons.mpr (by decide)
  · exact Text.beginsIn_cons.mpr (by decide)

/-- The texts the composer writes itself. -/
def COMPOSED_TEXTS : List String :=
  [COMPOSED_OPENING, COMPOSED_BASE, COMPOSED_CLOSING, "\nORDER BY"]

theorem composedTexts_commands : ∀ text ∈ COMPOSED_TEXTS, NoUnsafeCommand text := by
  decide +kernel

theorem upperTokens_cons {c : Char} (text : List Char) (h : isTokenChar c.toUpper = false) :
    sqlTokens ((c :: text).map Char.toUpper) = sqlTokens (text.map Char.toUpper) := by
  unfold sqlTokens
  rw [List.map_cons, Text.tokenChars_cons _ (by simp [h])]

theorem OrderText.command_mem (h : OrderText orderExprs orderBy) {command : String}
    (hcommand : command ∈ UNSAFE_SQL_COMMANDS) :
    command.toList ∈ sqlTokens (orderBy.toList.map Char.toUpper) ↔
      ∃ expr ∈ orderExprs, command.toList ∈ sqlTokens (expr.toList.map Char.toUpper) := by
  obtain ⟨rfl, rfl⟩ | ⟨expr, rfl, -, rfl⟩ := h
  · simp [sqlTokens, Text.tokenChars]
  · have hwords : "\nORDER BY " = "\nORDER BY" ++ " " := by decide
    have hspace : " ".toList = [' '] := by decide
    have hnone := composedTexts_commands "\nORDER BY" (by decide) command hcommand
    rw [sqlTokens_upperSql] at hnone
    have hexpr := upperTokens_cons expr.toList (by decide : isTokenChar ' '.toUpper = false)
    have hbegin : Text.BeginsIn (fun c => !isTokenChar c) ((' ' :: expr.toList).map Char.toUpper) :=
      Text.beginsIn_cons.mpr (by decide)
    rw [hwords, String.toList_append, String.toList_append, hspace, List.append_assoc,
      List.singleton_append, List.map_append]
    unfold sqlTokens at hnone hexpr ⊢
    rw [Text.tokenChars_append hbegin, hexpr, List.mem_append, or_iff_right hnone]
    simp only [List.mem_singleton, exists_eq_left]

theorem beginsIn_upper {text : List Char} (h : Text.BeginsIn (fun c => c = '\n') text) :
    Text.BeginsIn (fun c => !isTokenChar c) (text.map Char.toUpper) := by
  cases text with
  | nil => exact Text.beginsIn_nil
  | cons c rest =>
    obtain rfl : c = '\n' := by simpa using Text.beginsIn_cons.mp h
    exact Text.beginsIn_cons.mpr (by decide)

theorem commands_composed (hpredicates : PredicateText exprs taken last predicates.toList)
    (horder : OrderText orderExprs orderBy) {command : String}
    (hcommand : command ∈ UNSAFE_SQL_COMMANDS) :
    command.toList ∈ sqlTokens (upperSql (composedText source predicates fragment orderBy)) ↔
      command.toList ∈ sqlTokens (upperSql source) ∨
        (∃ expr ∈ exprs, command.toList ∈ sqlTokens (upperSql expr)) ∨
        command.toList ∈ sqlTokens (upperSql fragment) ∨
        ∃ expr ∈ orderExprs, command.toList ∈ sqlTokens (upperSql expr) := by
  have hconstant : ∀ text ∈ COMPOSED_TEXTS,
      command.toList ∉ sqlTokens (text.toList.map Char.toUpper) := by
    intro text htext
    rw [← sqlTokens_upperSql]
    exact composedTexts_commands text htext command hcommand
  have hopening := hconstant COMPOSED_OPENING (by decide)
  have hbase := hconstant COMPOSED_BASE (by decide)
  have hclosing := hconstant COMPOSED_CLOSING (by decide)
  have hpieces : ∀ piece ∈ (composedPieces source predicates fragment orderBy).map
      (List.map Char.toUpper), Text.BeginsIn (fun c => !isTokenChar c) piece := by
    intro piece hpiece
    obtain ⟨text, htext, rfl⟩ := List.mem_map.mp hpiece
    exact beginsIn_upper (composedPieces_begin hpredicates horder text htext)
  have hscan : sqlTokens ((composedText source predicates fragment orderBy).toList.map Char.toUpper)
      = sqlTokens (COMPOSED_OPENING.toList.map Char.toUpper) ++
        ((composedPieces source predicates fragment orderBy).map (List.map Char.toUpper)).flatMap
          sqlTokens := by
    rw [composedText_pieces, List.map_append, List.map_flatten]
    unfold sqlTokens
    rw [Text.tokenChars_append (Text.beginsIn_flatten hpieces),
      Text.scan_flatten _ rfl (fun before after hafter => Text.tokenChars_append hafter) hpieces]
  have hline : ∀ text : List Char, sqlTokens (('\n' :: text).map Char.toUpper) =
      sqlTokens (text.map Char.toUpper) := fun text => upperTokens_cons text (by decide)
  simp only [sqlTokens_upperSql, hscan, List.mem_append, hopening, false_or, composedPieces,
    List.map_cons, List.map_nil, List.flatMap_cons, List.flatMap_nil, List.not_mem_nil, or_false]
  rw [← List.map_cons, ← List.map_cons, hline, hline, hpredicates.command_mem hcommand,
    horder.command_mem hcommand]
  simp only [hbase, hclosing, false_or]

theorem semicolons_composed (hpredicates : PredicateText exprs taken last predicates.toList)
    (hexprs : ∀ expr ∈ exprs, validateSqlExpr expr = .ok ()) :
    SingleStatement (composedText source predicates fragment orderBy) ↔
      ';' ∉ source.toList ∧ SingleStatement (fragment ++ orderBy) := by
  have hplain : ';' ∉ predicates.toList := hpredicates.semicolon_not_mem fun expr hexpr =>
    validateSqlExpr_not_mem (hexprs expr hexpr) (by decide)
  have hbase : ';' ∉ COMPOSED_BASE.toList := by decide
  have hnewline : ';' ∉ ['\n'] := by decide
  have hsource : ∀ text : List Char, endsStatement ('\n' :: text) = endsStatement text :=
    fun text => endsStatement_append hnewline
  rw [singleStatement_iff, singleStatement_iff, composedText_pieces,
    endsStatement_append (by decide : ';' ∉ COMPOSED_OPENING.toList)]
  simp only [composedPieces, List.flatten_cons, List.flatten_nil, List.append_nil,
    List.cons_append, hsource]
  rw [endsStatement_append_iff (List.mem_append_left _ (by decide : ')' ∈ COMPOSED_BASE.toList))
    (by decide), endsStatement_append hbase, endsStatement_append hplain,
    endsStatement_append (by decide : ';' ∉ COMPOSED_CLOSING.toList), hsource,
    String.toList_append]

theorem offices_composed {parameters : List QueryParameter}
    (hpredicates : PredicateText exprs parameters.length last predicates.toList)
    (hexprs : ∀ expr ∈ exprs, validateSqlExpr expr = .ok ())
    (horder : OrderText orderExprs orderBy) :
    ConstrainsOffices parameters (composedText source predicates fragment orderBy) ↔
      ConstrainsOffices parameters source ∨ ConstrainsOffices parameters fragment := by
  simp only [mentions_upperSql]
  have hline : '\n' ∉ (officeConstraint parameters).toList :=
    officeConstraint_whitespace parameters (by decide)
  have hpattern : (officeConstraint parameters).toList ≠ [] :=
    List.ne_nil_of_mem (dollar_mem_officeConstraint parameters)
  have hnone : ∀ text : List Char, '$' ∉ text →
      mentions (text.map Char.toUpper) (officeConstraint parameters) = false :=
    fun text htext => mentions_of_not_mem parameters htext
  have hplain : ∀ expr ∈ exprs, '$' ∉ expr.toList := fun expr hexpr =>
    validateSqlExpr_not_mem (hexprs expr hexpr) (by decide)
  have hvalues : mentions (predicates.toList.map Char.toUpper) (officeConstraint parameters) =
      false := by
    rw [Bool.eq_false_iff]
    intro h
    have hposition := (hpredicates.mem_numbersAfter hplain).mp
      (officeConstraint_number parameters h)
    have hle := positionOf_le parameters "office_ids"
    omega
  have horderNone : mentions (orderBy.toList.map Char.toUpper) (officeConstraint parameters) =
      false := by
    apply hnone
    obtain ⟨-, rfl⟩ | ⟨expr, -, hexpr, rfl⟩ := horder
    · simp
    · rw [String.toList_append]
      exact List.not_mem_append (by decide) (validateSqlExpr_not_mem hexpr (by decide))
  have hopening := hnone COMPOSED_OPENING.toList (by decide)
  have hbase := hnone COMPOSED_BASE.toList (by decide)
  have hclosing := hnone COMPOSED_CLOSING.toList (by decide)
  have hpieces : ∀ piece ∈ (composedPieces source predicates fragment orderBy).map
      (List.map Char.toUpper), Text.BeginsIn (fun c => c = '\n') piece := by
    intro piece hpiece
    obtain ⟨text, htext, rfl⟩ := List.mem_map.mp hpiece
    have hbegin := composedPieces_begin hpredicates horder text htext
    cases text with
    | nil => exact Text.beginsIn_nil
    | cons c rest =>
      obtain rfl : c = '\n' := by simpa using Text.beginsIn_cons.mp hbegin
      exact Text.beginsIn_cons.mpr (by decide)
  have hstart : ∀ text : List Char,
      Text.containsChars (officeConstraint parameters).toList (('\n' :: text).map Char.toUpper) =
        true ↔ Text.containsChars (officeConstraint parameters).toList (text.map Char.toUpper) =
          true := by
    intro text
    have hcons := Text.containsChars_append_cons [] (text.map Char.toUpper) hline
    rw [Text.containsChars_nil hpattern] at hcons
    simpa using hcons
  unfold mentions at hvalues horderNone hopening hbase hclosing ⊢
  rw [composedText_pieces, List.map_append, List.map_flatten,
    Text.containsChars_append hline hpattern _ (Text.beginsIn_flatten hpieces),
    Text.containsChars_flatten hline hpattern hpieces, hopening]
  simp only [composedPieces, List.map_cons, List.map_nil, List.mem_cons, List.not_mem_nil, or_false,
    exists_eq_or_imp, exists_eq_left, hvalues, horderNone, hbase, hclosing, Bool.false_eq_true,
    false_or]
  rw [← List.map_cons, ← List.map_cons, hstart, hstart]

/-- The placeholders of a composed statement are the authored and the reserved ones. -/
theorem numbers_composed (hpredicates : PredicateText exprs taken last predicates.toList)
    (hexprs : ∀ expr ∈ exprs, validateSqlExpr expr = .ok ()) (horder : OrderText orderExprs orderBy)
    {number : ℕ} :
    number ∈ Text.numbersAfter '$' (composedText source predicates fragment orderBy).toList ↔
      number ∈ Text.numbersAfter '$' source.toList ∨ (taken < number ∧ number ≤ last) ∨
        number ∈ Text.numbersAfter '$' fragment.toList := by
  have hplain : ∀ expr ∈ exprs, '$' ∉ expr.toList := fun expr hexpr =>
    validateSqlExpr_not_mem (hexprs expr hexpr) (by decide)
  have horderNone : Text.numbersAfter '$' orderBy.toList = [] := by
    apply Text.numbersAfter_eq_nil
    obtain ⟨-, rfl⟩ | ⟨expr, -, hexpr, rfl⟩ := horder
    · simp
    · rw [String.toList_append]
      exact List.not_mem_append (by decide) (validateSqlExpr_not_mem hexpr (by decide))
  have hopening : Text.numbersAfter '$' COMPOSED_OPENING.toList = [] :=
    Text.numbersAfter_eq_nil (by decide)
  have hbase : Text.numbersAfter '$' COMPOSED_BASE.toList = [] :=
    Text.numbersAfter_eq_nil (by decide)
  have hclosing : Text.numbersAfter '$' COMPOSED_CLOSING.toList = [] :=
    Text.numbersAfter_eq_nil (by decide)
  have hline : ∀ text : List Char,
      Text.numbersAfter '$' ('\n' :: text) = Text.numbersAfter '$' text :=
    fun text => Text.numbersAfter_cons text (by decide)
  have hpieces : ∀ piece ∈ composedPieces source predicates fragment orderBy,
      Text.BeginsIn (fun c => !c.isDigit) piece := by
    intro piece hpiece c hc
    obtain rfl : c = '\n' := by
      simpa using composedPieces_begin hpredicates horder piece hpiece c hc
    decide
  rw [composedText_pieces, Text.numbersAfter_append (Text.beginsIn_flatten hpieces),
    Text.scan_flatten _ rfl (fun before after hafter => Text.numbersAfter_append hafter) hpieces,
    hopening]
  simp only [composedPieces, List.flatMap_cons, List.flatMap_nil, List.nil_append, List.append_nil,
    hline, hbase, hclosing, horderNone, List.mem_append, hpredicates.mem_numbersAfter hplain]

theorem singleStatement_ordered (horder : OrderText orderExprs orderBy) :
    SingleStatement (fragment ++ orderBy) ↔
      if orderExprs = [] then SingleStatement fragment else ';' ∉ fragment.toList := by
  obtain ⟨rfl, rfl⟩ | ⟨expr, rfl, hexpr, rfl⟩ := horder
  · rw [if_pos rfl, String.append_empty]
  · rw [if_neg (List.cons_ne_nil _ _), singleStatement_iff, String.toList_append]
    have hclause : ';' ∉ ("\nORDER BY " ++ expr).toList := by
      rw [String.toList_append]
      exact List.not_mem_append (by decide) (validateSqlExpr_not_mem hexpr (by decide))
    have hletter : 'O' ∈ ("\nORDER BY " ++ expr).toList := by
      rw [String.toList_append]
      exact List.mem_append_left _ (by decide)
    rw [endsStatement_append_iff hletter (by decide), endsStatement_of_not_mem hclause,
      and_iff_left rfl]

/-- What the authored texts of a composed statement have to meet for it to be safe. -/
structure AuthoredChecked (parameters : List QueryParameter) (source fragment : String)
    (exprs orderExprs : List String) : Prop where
  commands : ∀ text ∈ source :: fragment :: (exprs ++ orderExprs), NoUnsafeCommand text
  sourceOpen : ';' ∉ source.toList
  fragmentEnds : if orderExprs = [] then SingleStatement fragment else ';' ∉ fragment.toList
  offices : declares parameters "office_ids" = true →
    ConstrainsOffices parameters source ∨ ConstrainsOffices parameters fragment

theorem composedText_safe {parameters : List QueryParameter}
    (hpredicates : PredicateText exprs parameters.length last predicates.toList)
    (hexprs : ∀ expr ∈ exprs, validateSqlExpr expr = .ok ())
    (horder : OrderText orderExprs orderBy) :
    SafeStatement parameters (composedText source predicates fragment orderBy) ↔
      AuthoredChecked parameters source fragment exprs orderExprs := by
  have hcommands : NoUnsafeCommand (composedText source predicates fragment orderBy) ↔
      ∀ text ∈ source :: fragment :: (exprs ++ orderExprs), NoUnsafeCommand text := by
    constructor
    · intro h text htext command hcommand hmem
      apply h command hcommand
      rw [commands_composed hpredicates horder hcommand]
      simp only [List.mem_cons, List.mem_append] at htext
      rcases htext with rfl | rfl | hexpr | hexpr
      · exact Or.inl hmem
      · exact Or.inr (Or.inr (Or.inl hmem))
      · exact Or.inr (Or.inl ⟨text, hexpr, hmem⟩)
      · exact Or.inr (Or.inr (Or.inr ⟨text, hexpr, hmem⟩))
    · intro h command hcommand hmem
      rw [commands_composed hpredicates horder hcommand] at hmem
      rcases hmem with hsource | ⟨expr, hexpr, hin⟩ | hfragment | ⟨expr, hexpr, hin⟩
      · exact h source (by simp) command hcommand hsource
      · exact h expr (by simp [hexpr]) command hcommand hin
      · exact h fragment (by simp) command hcommand hfragment
      · exact h expr (by simp [hexpr]) command hcommand hin
  have hsemicolons : SingleStatement (composedText source predicates fragment orderBy) ↔
      ';' ∉ source.toList ∧
        if orderExprs = [] then SingleStatement fragment else ';' ∉ fragment.toList := by
    rw [← singleStatement_ordered horder]
    exact semicolons_composed hpredicates hexprs
  have hoffices : ConstrainsOffices parameters (composedText source predicates fragment orderBy) ↔
      ConstrainsOffices parameters source ∨ ConstrainsOffices parameters fragment :=
    offices_composed hpredicates hexprs horder
  constructor
  · intro h
    obtain ⟨hsource, hfragment⟩ := hsemicolons.mp h.singleStatement
    exact ⟨hcommands.mp h.noUnsafeCommand, hsource, hfragment,
      fun hdeclared => hoffices.mp (h.constrainsOffices hdeclared)⟩
  · intro h
    exact ⟨hcommands.mpr h.commands, hsemicolons.mpr ⟨h.sourceOpen, h.fragmentEnds⟩,
      fun hdeclared => hoffices.mpr (h.offices hdeclared)⟩

end Composed

section Compose

variable {dataset : DatasetKnowledge} {shape : ShapeOption} {shapeId source : String}
  {orderById fragment : Option String} {composed : ComposedSql}

/-- What a composed statement is made of. -/
theorem compose_spec (h : compose dataset shapeId orderById source fragment = .ok composed)
    (hshape : dataset.shape shapeId = some shape) :
    (IsDegenerate dataset shape orderById ∧ composed = ⟨source, []⟩) ∨
      (¬ IsDegenerate dataset shape orderById ∧ ∃ fragmentSql last predicates binds orderBy,
        fragment = some fragmentSql ∧
        composeFilters dataset shape (shape.parametersOf dataset).length dataset.filters =
          .ok (last, predicates, binds) ∧
        orderByClause dataset orderById = .ok orderBy ∧
        composed = ⟨composedText source predicates fragmentSql orderBy, binds⟩) := by
  simp only [compose, bind_eq_ok_iff, okOr_eq_ok, hshape, Option.some.injEq, exists_eq_left'] at h
  by_cases hdegenerate : IsDegenerate dataset shape orderById
  · rw [if_pos hdegenerate] at h
    exact Or.inl ⟨hdegenerate, (pure_eq_ok.mp h).symm⟩
  · rw [if_neg hdegenerate] at h
    simp only [bind_eq_ok_iff, okOr_eq_ok, pure_eq_ok, Prod.exists] at h
    obtain ⟨fragmentSql, hfragment, last, predicates, binds, hfilters, orderBy, horder, rfl⟩ := h
    exact Or.inr ⟨hdegenerate, fragmentSql, last, predicates, binds, orderBy, hfragment, hfilters,
      horder, rfl⟩

theorem predicateExprs_valid {filters : List FilterSlot}
    (h : ∀ filter ∈ filters, validateSqlExpr filter.expr = .ok ()) :
    ∀ expr ∈ predicateExprs filters, validateSqlExpr expr = .ok () := by
  intro expr hexpr
  obtain ⟨filter, hfilter, hin⟩ := List.mem_flatMap.mp hexpr
  obtain ⟨-, -, rfl⟩ := List.mem_map.mp hin
  exact h filter hfilter

/-- A composed statement is safe exactly when its authored texts are. -/
theorem compose_safe (h : compose dataset shapeId orderById source fragment = .ok composed)
    (hshape : dataset.shape shapeId = some shape) :
    SafeStatement (shape.parametersOf dataset) composed.sql ↔
      if IsDegenerate dataset shape orderById then SafeStatement (shape.parametersOf dataset) source
      else AuthoredChecked (shape.parametersOf dataset) source (fragment.getD "")
        (predicateExprs dataset.filters) (orderByExprs dataset orderById) := by
  obtain ⟨hdegenerate, rfl⟩ | ⟨hcomposed, fragmentSql, last, predicates, binds, orderBy, rfl,
    hfilters, horder, rfl⟩ := compose_spec h hshape
  · rw [if_pos hdegenerate]
  · rw [if_neg hcomposed]
    obtain ⟨-, htext, hexprs⟩ := composeFilters_text hfilters
    exact composedText_safe htext (predicateExprs_valid hexprs) (orderByClause_text horder)

end Compose

end FineractReports.Dataset
